import TraceArtifacts.Proofs.FailedRuns
import TraceArtifacts.Proofs.Reprocessing
import TraceArtifacts.Proofs.Settling

/-!
# Proofs: processing a trace again

The first run leaves the procedures of all calls, each of them settled (`processTrace_first`).
-/

namespace TraceArtifacts

variable {logStatements own raiseOnError : Bool} {relations relations' : List Relation} {x : ProcedureName} {s s' t t' : Session}
  {u : Unit} {final layers o o' o'' trace : Value}

/-! ## The first run -/

/-- The procedures of a session are the ones of calls of its trace, as they would be processed to now. -/
structure Traced (t : Session) (layers : Value) : Prop where
  held : t.settings.entry Setting.layers = .ok layers
  base : layers = .object [] ∨ IsBaseLayer layers ∧ procedureNames layers ≠ []
  current : ∀ {x o}, procedureAt? layers x = some o → Current t.trace x o ∧ IsCalled t.trace x

theorem Traced.isBaseLayer (h : Traced t layers) : layers = .object [] ∨ IsBaseLayer layers := h.base.imp_right And.left

section CallStored

variable {layers' : Value} (h : CallStored x s s' layers layers' o)
include h

theorem CallStored.isCalled (y : ProcedureName) : IsCalled s'.trace y ↔ IsCalled s.trace y := by
  by_cases hy : y = x
  · subst hy
    rw [IsCalled, IsCalled, h.call "sql" (by decide)]
  · rw [IsCalled, IsCalled, h.calls y hy]

theorem CallStored.traced (ht : Traced s layers) (hx : IsCalled s.trace x) : Traced s' layers' where
  held := by rw [h.settings, Settings.entry_set_self]
  base := .inr ⟨h.base, List.ne_nil_of_mem ((mem_procedureNames h.base).2 ⟨o, h.procedure⟩)⟩
  current := fun {y o'} ho' => by
    rw [h.isCalled]
    by_cases hy : y = x
    · subst hy
      obtain rfl := Option.mem_unique h.procedure ho'
      exact ⟨h.current, hx⟩
    · rw [h.others y hy] at ho'
      obtain ⟨hcurrent, hcalled⟩ := ht.current ho'
      have hsame := h.calls y hy []
      rw [List.append_nil] at hsame
      exact ⟨hcurrent.congr hsame, hcalled⟩

end CallStored

/-- How far the first run has come. -/
structure FirstPass (s t : Session) : Prop where
  progress : Progress (fun _ => True) (fun _ => True) s t
  traced : ∃ layers, Traced t layers
  called : ∀ y, IsCalled t.trace y ↔ IsCalled s.trace y

theorem FirstPass.log (h : FirstPass s t) (log : List (String × String)) : FirstPass s { t with log } where
  progress := ⟨h.progress.settings, h.progress.layers, h.progress.trace⟩
  traced := by
    obtain ⟨layers, ht⟩ := h.traced
    exact ⟨layers, ht.held, ht.base, ht.current⟩
  called := h.called

theorem FirstPass.call (h : FirstPass s t) (hx : IsCalled t.trace x) (hrun : processCall own x.1 x.2 t = .ok u t') : FirstPass s t' := by
  obtain ⟨layers, ht⟩ := h.traced
  obtain ⟨layers', o, hstored⟩ := processCall_stored hrun hx ht.held ht.isBaseLayer
  exact ⟨keeps_processCall storesAs_trivial s own x hrun h.progress, ⟨layers', hstored.traced ht hx⟩,
    fun y => (hstored.isCalled y).trans (h.called y)⟩

def HasProcedure (x : ProcedureName) (t : Session) : Prop :=
  ∃ layers o, t.settings.entry Setting.layers = .ok layers ∧ procedureAt? layers x = some o

theorem FirstPass.hasProcedure (h : FirstPass s t) {y : ProcedureName} (hx : IsCalled t.trace x)
    (hrun : processCall own x.1 x.2 t = .ok u t') (hy : y = x ∨ HasProcedure y t) : HasProcedure y t' := by
  obtain ⟨layers, ht⟩ := h.traced
  obtain ⟨layers', o, hstored⟩ := processCall_stored hrun hx ht.held ht.isBaseLayer
  have hl : t'.settings.entry Setting.layers = .ok layers' := by rw [hstored.settings, Settings.entry_set_self]
  by_cases hyx : y = x
  · subst hyx
    exact ⟨layers', o, hl, hstored.procedure⟩
  · obtain ⟨l, o', hl', ho'⟩ := hy.resolve_left hyx
    obtain rfl := ok_unique ht.held hl'
    exact ⟨layers', o', hl, by rw [hstored.others y hyx]; exact ho'⟩

/-- What the first run leaves: the procedures of all calls, as they would be processed to now, each of them settled, and elements. -/
structure FirstDone (s' : Session) (final : Value) (relations : List Relation) (elements : List Element) : Prop where
  traced : Traced s' final
  base : IsBaseLayer final
  stored : ∀ x, IsCalled s'.trace x → ∃ o, procedureAt? final x = some o
  records : HasRecords final
  related : buildRelations final = .ok relations
  settled : Settled final s'.settings relations
  listed : final.entry consumptionKey = .ok (.list (elements.map Element.toValue))
  nonempty : elements ≠ []

theorem Settled.congr {l : Value} {settings settings' : Settings} (h : Settled layers settings relations)
    (hbase : l.at? [.key baseKey] = layers.at? [.key baseKey])
    (hst : settings'.entry Setting.mergeStrategy = settings.entry Setting.mergeStrategy) : Settled l settings' relations := by
  intro x hx
  have hname : carriedName l = carriedName layers := by
    funext y
    rw [carriedName, carriedName, procedureAt?_congr hbase]
  rw [procedureNames_congr hbase] at hx
  rw [IsMarked, procedureAt?_congr hbase, MergesPartitions, hst, mergeRules, hname]
  exact h x hx

theorem Current.namedAs (h : Current trace x o) : ∃ name, NamedAs o name := by
  obtain ⟨metadata, hm, ho⟩ := h.metadata
  obtain ⟨name, category, rfl⟩ := metadataOf_ok hm
  exact ⟨name, category, ho⟩

theorem fillConsumption_first (h : fillConsumption t = .ok u s') (hl : t.settings.entry Setting.layers = .ok layers)
    (hf : FreshBase layers) (hne : procedureNames layers ≠ []) (hnamed : ∀ {x o}, procedureAt? layers x = some o → ∃ name, NamedAs o name) :
    ∃ final relations elements, s'.settings.entry Setting.layers = .ok final ∧
      (∃ l b, l.at? [.key baseKey] = layers.at? [.key baseKey] ∧ Alike ["groups", mergedKey] l b ∧
        final.at? [.key baseKey] = b.at? [.key baseKey]) ∧
      buildRelations final = .ok relations ∧ Settled final s'.settings relations ∧
      final.entry consumptionKey = .ok (.list (elements.map Element.toValue)) ∧ elements ≠ [] := by
  obtain ⟨es, t1, l1, final, hrun, hl1, hfinal, rfl⟩ := fillConsumption_ok h
  obtain ⟨relations, l, g, st, b, hrel, hset, hg, hst, hb, rfl⟩ := relateAndBuild_ok hrun hl
  obtain rfl := ok_unique (Settings.entry_set_self ..) hl1
  obtain ⟨hlbase, halike, hf1, hhas1, hpair⟩ := groupedFrom hf hrel hset hg t.shownGroups
  obtain ⟨hmarks, -⟩ := buildConsumption_built hb hf1.base hf1.records hhas1 hpair
  have hbase : final.at? [.key baseKey] = b.layers.at? [.key baseKey] := by
    rw [Value.at?_setEntry_ne hfinal (by decide), relatedTypes_base]
  have hrel1 : buildRelations (refreshGroups t.shownGroups g.layers) = .ok relations := by
    rw [halike.buildRelations_eq (by decide), buildRelations_congr hf.base hlbase, hrel]
  obtain ⟨hsettled, hsettings⟩ := buildConsumption_settled hb hf1 hhas1 hpair
  refine ⟨final, relations, es, Settings.entry_set_self .., ⟨l, b.layers, hlbase,
    (halike.mono (by simp)).trans (hmarks.mono (by simp)), hbase⟩, ?_, hsettled.congr hbase ?_,
    Value.entry_eq_ok_iff.2 (Value.at?_setEntry_self hfinal), ?_⟩
  · rw [buildRelations_congr hmarks.base' hbase, hmarks.buildRelations_eq (by decide), hrel1]
  · show Settings.entry (Fields.set _ _ (Fields.set _ _ _)) _ = _
    rw [Settings.entry_set_ne (by decide), Settings.entry_set_ne (by decide), hsettings _ (by decide)]
  · refine buildConsumption_ne_nil hb hf1 hrel1 hhas1 (fun ho => ?_) ?_
    · obtain ⟨o, ho', hs⟩ := halike.procedure' ho
      rw [procedureAt?_congr hlbase] at ho'
      obtain ⟨name, category, hname⟩ := hnamed ho'
      exact ⟨name, category, (hs.entry (by decide)).trans hname⟩
    · rw [halike.names, procedureNames_congr hlbase]
      exact hne

theorem processTrace_first (h : processTrace raiseOnError logStatements own s = .ok u s')
    (hl : s.settings.entry Setting.layers = .ok (.object [])) :
    (s.trace.isTruthy = false ∧ s' = s) ∨ (s.trace.isTruthy = true ∧
      ∃ final relations elements, FirstDone s' final relations elements) := by
  refine (processTrace_cases h).imp_right ?_
  rintro ⟨htruthy, t0, t, ht0, halgos, hfill⟩
  refine ⟨htruthy, ?_⟩
  have hstart : FirstPass s t0 := by
    have hs : FirstPass s s := ⟨⟨fun _ _ => rfl, ⟨_, hl, .inl rfl⟩, trivial⟩, ⟨_, hl, .inl rfl, fun ho => by cases ho⟩, fun _ => Iff.rfl⟩
    rcases ht0 with rfl | ⟨text, ht0⟩
    · exact hs
    · cases ht0
      exact hs.log _
  have hpass : FirstPass s t :=
    keeps_processAlgos_called (fun h hx hrun => h.call hx hrun) (fun h log => h.log log) raiseOnError s.trace halgos hstart
  have hall : ∀ x, IsCalled s.trace x → HasProcedure x t := fun x hx =>
    processAlgos_brings (fun h hx hrun => h.call hx hrun) (fun h log => h.log log)
      (fun hJ hK hy hrun => hJ.hasProcedure hy hrun (.inr hK)) (fun hK _ => hK) (fun hJ => (hJ.called x).2 hx)
      (fun hJ hrun => hJ.hasProcedure ((hJ.called x).2 hx) hrun (.inl rfl)) halgos hx hstart
  obtain ⟨layers, htraced⟩ := hpass.traced
  -- the base layer is fresh, so everything is settled in the end
  have hf : FreshBase layers ∧ procedureNames layers ≠ [] := by
    obtain ⟨l, hl, hfilled⟩ := hpass.progress.layers
    obtain rfl := ok_unique htraced.held hl
    obtain ⟨es, t', l', l'', hrel, -⟩ := fillConsumption_ok hfill
    obtain ⟨relations, -, -, -, -, hrelations, -⟩ := relateAndBuild_ok hrel hl
    obtain ⟨base, hbase, -⟩ := bind_ok.1 hrelations
    refine ⟨(hfilled.fresh hbase).1, ?_⟩
    rcases htraced.base with rfl | ⟨-, hne⟩
    · cases hbase
    · exact hne
  obtain ⟨hf, hne⟩ := hf
  have htrace := fillConsumption_trace hfill htraced.held hf
  obtain ⟨final, relations, elements, hfinal, ⟨l, b, hlbase, halike, hbase⟩, hrel, hsettled, hlisted, hnonempty⟩ :=
    fillConsumption_first hfill htraced.held hf hne fun ho => (htraced.current ho).1.namedAs
  have hb := halike.base'.congr hbase
  refine ⟨final, relations, elements, ⟨hfinal, .inr ⟨hb, ?_⟩, fun ho => ?_⟩, hb, fun x hx => ?_, fun ho => ?_, hrel, hsettled,
    hlisted, hnonempty⟩
  · rw [procedureNames_congr hbase, halike.names, procedureNames_congr hlbase]
    exact hne
  · rw [procedureAt?_congr hbase] at ho
    obtain ⟨o', ho', hs⟩ := halike.procedure' ho
    rw [procedureAt?_congr hlbase] at ho'
    rw [htrace]
    exact ⟨(htraced.current ho').1.sameBut hs (by decide), (htraced.current ho').2⟩
  · rw [htrace] at hx
    obtain ⟨layers', o, hl', ho⟩ := hall x ((hpass.called x).1 hx)
    obtain rfl := ok_unique htraced.held hl'
    rw [← procedureAt?_congr hlbase] at ho
    obtain ⟨o', ho', -⟩ := halike.procedure ho
    exact ⟨o', by rw [procedureAt?_congr hbase]; exact ho'⟩
  · rw [procedureAt?_congr hbase] at ho
    exact halike.hasRecords ho

/-! ## The second run -/

theorem SelectsIn.trans {key : String} (h1 : SelectsIn key o o') (h2 : SelectsIn key o' o'') : SelectsIn key o o'' := by
  intro t ht
  obtain ⟨t', ht', hs⟩ := h1 t ht
  obtain ⟨t'', ht'', hs'⟩ := h2 t' ht'
  exact ⟨t'', ht'', hs.trans hs'⟩

/-- A procedure that was stored again: with its old selects, name and notes. -/
structure StoredAgain (o o' : Value) : Prop where
  kept : o.SameBut storedKeys o'
  metadata : o'.entry "metadata" = o.entry "metadata"
  inputs : SelectsIn "input_tables" o o'
  outputs : SelectsIn "output_tables" o o'

theorem StoredAgain.refl {fs : Fields} : StoredAgain (.object fs) (.object fs) :=
  ⟨.refl _ fs, rfl, fun t ht => ⟨t, ht, rfl⟩, fun t ht => ⟨t, ht, rfl⟩⟩

theorem StoredAgain.trans (h1 : StoredAgain o o') (h2 : StoredAgain o' o'') : StoredAgain o o'' :=
  ⟨h1.kept.trans h2.kept, h2.metadata.trans h1.metadata, h1.inputs.trans h2.inputs, h1.outputs.trans h2.outputs⟩

/-- How far the second run has come: no procedure is new, and all else that the first run left is there. -/
structure SecondPass (s : Session) (final : Value) (t : Session) (layers : Value) : Prop where
  settings : ∀ k, k ≠ Setting.layers → t.settings.entry k = s.settings.entry k
  traced : Traced t layers
  base : IsBaseLayer layers
  called : ∀ y, IsCalled t.trace y ↔ IsCalled s.trace y
  entries : ∀ k, k ≠ baseKey → layers.at? [.key k] = final.at? [.key k]
  old : ∀ {x o}, procedureAt? layers x = some o → ∃ o', procedureAt? final x = some o' ∧ StoredAgain o' o
  again : ∀ {x o}, procedureAt? final x = some o → ∃ o', procedureAt? layers x = some o' ∧ StoredAgain o o'

theorem FirstDone.secondPass {elements : List Element} (h : FirstDone s final relations elements) : SecondPass s final s final where
  settings := fun _ _ => rfl
  traced := h.traced
  base := h.base
  called := fun _ => Iff.rfl
  entries := fun _ _ => rfl
  old := fun {x o} ho => by
    obtain ⟨fs, rfl⟩ := h.records ho
    exact ⟨_, ho, .refl⟩
  again := fun {x o} ho => by
    obtain ⟨fs, rfl⟩ := h.records ho
    exact ⟨_, ho, .refl⟩

theorem SecondPass.log (h : SecondPass s final t layers) (log : List (String × String)) : SecondPass s final { t with log } layers :=
  ⟨h.settings, ⟨h.traced.held, h.traced.base, h.traced.current⟩, h.base, h.called, h.entries, h.old, h.again⟩

theorem SecondPass.records (h : SecondPass s final t layers) : HasRecords layers := by
  intro x o ho
  obtain ⟨o', -, hagain⟩ := h.old ho
  exact hagain.kept.isObject

theorem CallStored.again_of {layers' : Value} (h : CallStored x s s' layers layers' o') (ho : procedureAt? layers x = some o)
    (hcurrent : Current s.trace x o) : StoredAgain o o' := by
  obtain ⟨hins, houts⟩ := h.again hcurrent
  obtain ⟨metadata, hm, hmeta⟩ := hcurrent.metadata
  obtain ⟨metadata', hm', hmeta'⟩ := h.current.metadata
  obtain rfl := ok_unique hm hm'
  have hkept := h.kept
  rw [ho] at hkept
  exact ⟨hkept, hmeta'.trans hmeta.symm, hins, houts⟩

theorem SecondPass.call (h : SecondPass s final t layers) (hstored : ∀ x, IsCalled s.trace x → ∃ o, procedureAt? final x = some o)
    (hx : IsCalled t.trace x) (hrun : processCall own x.1 x.2 t = .ok u t') : ∃ layers', SecondPass s final t' layers' := by
  obtain ⟨layers', o2, hcs⟩ := processCall_stored hrun hx h.traced.held h.traced.isBaseLayer
  obtain ⟨o, ho⟩ := hstored x ((h.called x).1 hx)
  obtain ⟨o1, ho1, hagain⟩ := h.again ho
  have hagain' := hagain.trans (hcs.again_of ho1 (h.traced.current ho1).1)
  refine ⟨layers', fun k hk => ?_, hcs.traced h.traced hx, hcs.base, fun y => (hcs.isCalled y).trans (h.called y),
    fun k hk => (hcs.entries k hk).trans (h.entries k hk), fun {y o'} ho' => ?_, fun {y o'} ho' => ?_⟩
  · rw [hcs.settings, Settings.entry_set_ne hk, h.settings k hk]
  · by_cases hy : y = x
    · subst hy
      obtain rfl := Option.mem_unique hcs.procedure ho'
      exact ⟨o, ho, hagain'⟩
    · rw [hcs.others y hy] at ho'
      exact h.old ho'
  · by_cases hy : y = x
    · subst hy
      obtain rfl := Option.mem_unique ho ho'
      exact ⟨o2, hcs.procedure, hagain'⟩
    · rw [hcs.others y hy]
      exact h.again ho'

theorem SecondPass.relation (h : SecondPass s final t layers) (hb : IsBaseLayer final) (hrel : buildRelations final = .ok relations)
    (hrel' : buildRelations layers = .ok relations') {r : Relation} (hr : r ∈ relations) :
    ∃ r' ∈ relations', r'.toPath = r.toPath ∧ r'.fromMetadata = r.fromMetadata := by
  obtain ⟨x, y, hj, select, select', hselect, hselect', hin⟩ := (mem_buildRelations hb hrel).1 hr
  obtain ⟨o, ho, hmeta, htable⟩ := hj.writer
  obtain ⟨u, hu, hmeta', htable'⟩ := hj.reader
  obtain ⟨o1, ho1, hagain⟩ := h.again ho
  obtain ⟨u1, hu1, hagain'⟩ := h.again hu
  obtain ⟨t1, ht1, hs1⟩ := hagain.outputs _ htable
  obtain ⟨t2, ht2, hs2⟩ := hagain'.inputs _ htable'
  refine ⟨{ r with fromTable := t1, toTable := t2 }, (mem_buildRelations h.base hrel').2 ⟨x, y, ⟨hj.fromPath, hj.toPath,
    ⟨o1, ho1, hagain.metadata.trans hmeta, ht1⟩, ⟨u1, hu1, hagain'.metadata.trans hmeta', ht2⟩⟩, select, select', ?_, ?_, hin⟩,
    rfl, rfl⟩
  · exact Eq.trans hs1 hselect
  · exact Eq.trans hs2 hselect'

theorem SecondPass.settled (h : SecondPass s final t layers) (hb : IsBaseLayer final) (hrel : buildRelations final = .ok relations)
    (hrel' : buildRelations layers = .ok relations') (hsettled : Settled final s.settings relations) :
    Settled layers t.settings relations' := by
  intro x hx
  obtain ⟨o', ho'⟩ := (mem_procedureNames h.base).1 hx
  obtain ⟨o, ho, hagain⟩ := h.old ho'
  have hname : carriedName layers x = carriedName final x := by
    have hproc : procedureName o' = procedureName o := by
      obtain ⟨metadata, -, hmeta'⟩ := (h.traced.current ho').1.metadata
      rw [procedureName, procedureName, Value.has_of_entry hmeta', Value.has_of_entry (hagain.metadata.symm.trans hmeta'), hagain.metadata]
    rw [carriedName, carriedName, ho, ho', Option.map_some, Option.map_some, hproc]
  rcases hsettled x ((mem_procedureNames hb).2 ⟨o, ho⟩) with ⟨o1, v, ho1, hv, htruthy⟩ | ⟨hm, hpart, hwaits⟩
  · obtain rfl := Option.mem_unique ho ho1
    exact .inl ⟨o', v, ho', by rw [hagain.kept.entryOr (by decide)]; exact hv, htruthy⟩
  · refine .inr ⟨?_, ?_, ?_⟩
    · rw [MergesPartitions, h.settings _ (by decide)]
      exact hm
    · rw [mergeRules_isPartition, hname, ← mergeRules_isPartition final relations]
      exact hpart
    · obtain ⟨r, hr, hpath⟩ := List.any_eq_true.1 hwaits
      obtain ⟨r', hr', hto, hmeta⟩ := h.relation hb hrel hrel' hr
      refine List.any_eq_true.2 ⟨r', hr', ?_⟩
      rw [hto, Relation.fromPartition, hmeta]
      exact hpath

theorem fillConsumption_settled (h : fillConsumption t = .ok u s') (hl : t.settings.entry Setting.layers = .ok layers)
    (hb : IsBaseLayer layers) (hr : HasRecords layers)
    (hsettled : ∀ {relations}, buildRelations layers = .ok relations → Settled layers t.settings relations) :
    ∃ final, s'.settings.entry Setting.layers = .ok final ∧ final.entry consumptionKey = .ok (.list []) := by
  obtain ⟨es, t1, l1, final, hrun, hl1, hfinal, rfl⟩ := fillConsumption_ok h
  obtain ⟨relations, l, g, st, b, hrel, hset, hg, hst, hbuild, rfl⟩ := relateAndBuild_ok hrun hl
  have hhas : HasRelations l relations := Value.at?_setEntry_self hset
  have hlbase : l.at? [.key baseKey] = layers.at? [.key baseKey] := Value.at?_setEntry_ne hset (by decide)
  have hpair := buildRelations_paired hb hrel
  have hrl : HasRecords l := fun ho => hr (by rw [← procedureAt?_congr hlbase]; exact ho)
  have halike := (setGroups_regrouped hg (hb.congr hlbase) hpair hhas).refreshed (hb.congr hlbase) hrl t.shownGroups
  have hnil : es = [] := by
    refine buildConsumption_nil hbuild halike.base' halike.hasRecords (halike.relations.trans hhas) hpair fun x hx => ?_
    have hl' : Settled l st relations := (hsettled hrel).congr hlbase (hst _ (by decide))
    rw [mergeRules_alike halike (by decide)]
    rw [halike.names] at hx
    refine (hl' x hx).imp_left ?_
    rintro ⟨o, v, ho, hv, htruthy⟩
    obtain ⟨o', ho', hs⟩ := halike.procedure ho
    exact ⟨o', v, ho', by rw [hs.entryOr (by decide)]; exact hv, htruthy⟩
  subst hnil
  exact ⟨final, Settings.entry_set_self .., Value.entry_eq_ok_iff.2 (Value.at?_setEntry_self hfinal)⟩

/-! ## Both runs -/

theorem processTrace_of_falsy (h : s.trace.isTruthy = false) (hl : s.settings.entry Setting.layers = .ok layers)
    (raiseOnError logStatements own : Bool) : processTrace raiseOnError logStatements own s = .ok () s := by
  rw [processTrace, run_get_bind, run_bind_of_ok (Job.layers_ok.2 ⟨hl, rfl⟩), h]
  rfl

theorem IsCalled.truthy (h : IsCalled trace x) : trace.isTruthy = true := by
  obtain ⟨fs, -, hat, -⟩ := h.call
  rw [callPlace, Value.at?_cons, Option.bind_eq_some_iff] at hat
  obtain ⟨functions, hat, -⟩ := hat
  obtain ⟨gs, rfl, hgs⟩ := Value.entry_ok.1 (Value.entry_eq_ok_iff.2 hat)
  cases gs with
  | nil => cases hgs
  | cons g gs => rfl

namespace FirstDone

variable {elements : List Element} (h : FirstDone s final relations elements)
include h

theorem truthy : s.trace.isTruthy = true := by
  obtain ⟨x, hx⟩ := List.exists_mem_of_ne_nil _ (h.traced.base.resolve_left fun he => by
    obtain ⟨rows, hrows⟩ := h.base
    rw [he] at hrows
    cases hrows.base).2
  obtain ⟨o, ho⟩ := (mem_procedureNames h.base).1 hx
  exact (h.traced.current ho).2.truthy

theorem names : listedNames s = .ok (elements.map fun e => .text e.name) := by
  refine Session.lists_iff.2 ⟨final, h.traced.held, elementNames_ok.2 ⟨_, Value.entry_eq_ok_iff.1 h.listed, _, rfl, ?_⟩⟩
  rw [List.forall₂_map_left_iff, List.forall₂_map_right_iff]
  exact List.forall₂_same.2 fun e _ => rfl

theorem again {t0 : Session} (ht0 : t0 = s ∨ ∃ text, Job.report "debug" text s = .ok () t0)
    (hrun : processAlgos raiseOnError own s.trace t0 = .ok () t) : ∃ layers, SecondPass s final t layers := by
  have hstart : ∃ layers, SecondPass s final t0 layers := by
    rcases ht0 with rfl | ⟨text, ht0⟩
    · exact ⟨final, h.secondPass⟩
    · cases ht0
      exact ⟨final, h.secondPass.log _⟩
  refine keeps_processAlgos_called (J := fun t => ∃ layers, SecondPass s final t layers) ?_ ?_ raiseOnError s.trace hrun hstart
  · rintro x t u t' ⟨layers, hpass⟩ hx hcall
    exact hpass.call h.stored hx hcall
  · rintro t ⟨layers, hpass⟩ log
    exact ⟨layers, hpass.log log⟩

theorem names_again (hrun : processTrace raiseOnError logStatements own s = .ok () s') : listedNames s' = .ok [] := by
  rcases processTrace_cases hrun with ⟨hno, -⟩ | ⟨-, t0, t, ht0, halgos, hfill⟩
  · rw [h.truthy] at hno
    cases hno
  obtain ⟨layers, hpass⟩ := h.again ht0 halgos
  obtain ⟨l, hl, hnone⟩ := fillConsumption_settled hfill hpass.traced.held hpass.base hpass.records
    fun hrel => hpass.settled h.base h.related hrel h.settled
  exact Session.lists_iff.2 ⟨l, hl, elementNames_ok.2 ⟨_, Value.entry_eq_ok_iff.1 hnone, [], rfl, .nil⟩⟩

theorem names_of_error {e : Fault} (hrun : processTrace raiseOnError logStatements own s = .error e s') :
    listedNames s' = listedNames s := by
  rw [h.names]
  refine processTrace_fails h.names raiseOnError logStatements own (fun ht0 halgos => ?_) e s' hrun
  obtain ⟨layers, hpass⟩ := h.again ht0 halgos
  exact ⟨layers, hpass.traced.held, hpass.base, hpass.records⟩

end FirstDone

/-- A trace that is processed from scratch and then again on the same session. -/
theorem processTrace_again_lists_nothing {raiseOnError logStatements own : Bool} {s s' : Session}
    (h : processTrace raiseOnError logStatements own s = .ok () s')
    (hl : s.settings.entry Setting.layers = .ok (.object [])) :
    (s.trace.isTruthy = false ∧ s' = s ∧ ∀ r l o, processTrace r l o s' = .ok () s') ∨
      (s.trace.isTruthy = true ∧ ∃ name names, listedNames s' = .ok (name :: names) ∧ ∀ r l o,
        (∀ s'', processTrace r l o s' = .ok () s'' → listedNames s'' = .ok []) ∧
        ∀ e s'', processTrace r l o s' = .error e s'' → listedNames s'' = .ok (name :: names)) := by
  rcases processTrace_first h hl with ⟨hno, rfl⟩ | ⟨htruthy, final, relations, elements, hdone⟩
  · exact .inl ⟨hno, rfl, fun r l o => processTrace_of_falsy hno hl r l o⟩
  · refine .inr ⟨htruthy, ?_⟩
    obtain ⟨e, es, rfl⟩ := List.exists_cons_of_ne_nil hdone.nonempty
    have hnames := hdone.names
    exact ⟨_, _, hnames, fun r l o => ⟨fun s'' hrun => hdone.names_again hrun, fun e' s'' hrun => (hdone.names_of_error hrun).trans hnames⟩⟩

def repeatedSession : Session where
  settings := Settings.builtin ++ [(Setting.mergeStrategy, .int 1), (Setting.groupStrategy, .int 1),
    (Setting.layers, .object []), (Setting.sourceMapping, .object [])]
  trace := .object [("RandomForestClassifier", .object [("F", .object [("sql", .list [.text "DO"])])])]

theorem repeatedSession_runs : ∃ s' s'', processTrace true false true repeatedSession = .ok () s' ∧
    processTrace true false true s' = .ok () s'' := by
  have hrun : succeedsWith (fun _ _ => true) ((do
      processTrace true false true
      processTrace true false true : Job Unit) repeatedSession) = true := by decide +kernel
  obtain ⟨_, s'', h, -⟩ := exists_of_succeedsWith hrun
  obtain ⟨_, s', h, h'⟩ := run_bind_ok.1 h
  exact ⟨s', s'', h, h'⟩

theorem processTrace_again_lists_nothing_sample : ∃ s' s'', processTrace true false true repeatedSession = .ok () s' ∧
    processTrace true false true s' = .ok () s'' ∧ listedNames s'' = .ok [] := by
  obtain ⟨s', s'', h, h'⟩ := repeatedSession_runs
  refine ⟨s', s'', h, h', ?_⟩
  rcases processTrace_again_lists_nothing h rfl with ⟨hno, -⟩ | ⟨-, name, names, -, hagain⟩
  · exact absurd hno (by decide)
  · exact (hagain ..).1 s'' h'

/-- The second run of the sample does not list what the first one does. -/
theorem processTrace_again_lists_other_names : ∃ s' s'', processTrace true false true repeatedSession = .ok () s' ∧
    processTrace true false true s' = .ok () s'' ∧ listedNames s'' ≠ listedNames s' := by
  obtain ⟨s', s'', h, h'⟩ := repeatedSession_runs
  refine ⟨s', s'', h, h', fun he => ?_⟩
  rcases processTrace_first h rfl with ⟨hno, -⟩ | ⟨-, final, relations, elements, hdone⟩
  · exact absurd hno (by decide)
  · rw [hdone.names_again h', hdone.names] at he
    exact hdone.nonempty (List.map_eq_nil_iff.1 (Except.ok.inj he).symm)

end TraceArtifacts
