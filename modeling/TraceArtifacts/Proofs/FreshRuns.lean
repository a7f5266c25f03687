import TraceArtifacts.Proofs.RenamedElements
import TraceArtifacts.Proofs.SecondRuns
import TraceArtifacts.Proofs.SteadyCalls

/-!
# Proofs: processing a trace twice, each time from scratch

The trace that a run leaves is processed again, by a session with the same settings and nothing processed yet, which draws its
identifiers from another number on.
-/

namespace TraceArtifacts

variable {logStatements own raiseOnError : Bool} {ins outs : List Value} {n : Nat} {x : ProcedureName} {s s' t : Session} {u : Unit}
  {l layers o trace : Value}

/-! ## Identifiers from another number on -/

def shiftIdentifier (a b : Nat) (u : String) : String := identifier (digitsValue u.toList - a + b)

theorem shiftIdentifier_identifier (a b i : Nat) : shiftIdentifier a b (identifier (a + i)) = identifier (b + i) := by
  rw [shiftIdentifier, digitsValue_identifier, Nat.add_sub_cancel_left, Nat.add_comm]

/-! ## Making the consumption layer again -/

theorem renameBase_eq_self {rows : Fields} (hrows : HasRows layers rows) (h : ∀ p ∈ proceduresOf layers, p.2.2.at? [.key "groups"] = none)
    (σ : String → String) : renameBase σ layers = layers := by
  refine Value.modifyAt_eq_self fun base hbase => ?_
  obtain rfl := Option.mem_unique hrows.base hbase
  refine congrArg Value.object ((List.map_congr_left fun p hp => ?_).trans (List.map_id _))
  obtain ⟨fns, hfns, -⟩ := hrows.row p hp
  refine Prod.ext rfl ?_
  show Value.eachEntry _ p.2 = p.2
  rw [hfns]
  refine congrArg Value.object ((List.map_congr_left fun q hq => ?_).trans (List.map_id _))
  refine Prod.ext rfl (Value.modifyAt_eq_self fun groups hgroups => ?_)
  have hmem : (p.1, q.1, q.2) ∈ proceduresOf layers := by
    rw [hrows.procedures]
    refine List.mem_flatMap.2 ⟨p, hp, ?_⟩
    rw [rowProcedures, hfns]
    exact List.mem_map.2 ⟨q, hq, rfl⟩
  have hnone := h _ hmem
  rw [hgroups] at hnone
  cases hnone

theorem refreshGroups_eq_self (h : layers.at? [.key consumptionKey] = none) (origins : List ProcedureName) :
    refreshGroups origins layers = layers :=
  Value.modifyAt_eq_self fun es hes => by
    rw [h] at hes
    cases hes

theorem Job.grouping_of_ok {step : GroupStep α} {g : GroupState} {a : α} (hl : s.settings.entry Setting.layers = .ok l)
    (hg : step { layers := l, nextId := s.nextId } = .ok a g) :
    Job.grouping step s = .ok a { s with settings := s.settings.set Setting.layers g.layers, nextId := g.nextId } := by
  rw [Job.grouping, run_bind_of_ok (Job.layers_ok.2 ⟨hl, rfl⟩), run_get_bind]
  simp only [hg]
  rfl

theorem Job.building_of_ok {step : BuildStep α} {b : BuildState} {a : α} (hl : s.settings.entry Setting.layers = .ok l)
    (hb : step { layers := l, settings := s.settings } = .ok a b) :
    Job.building step s = .ok a
      { s with settings := b.settings.set Setting.layers (relatedTypes b.layers), trace := tracedTypes b.layers s.trace } := by
  rw [Job.building, run_bind_of_ok (Job.layers_ok.2 ⟨hl, rfl⟩), run_get_bind]
  simp only [hb]
  rfl

theorem showGroups_of_ok (hl : s.settings.entry Setting.layers = .ok l) : showGroups s =
      .ok () { s with settings := s.settings.set Setting.layers (refreshGroups s.shownGroups l) } := by
  rw [showGroups, run_bind_of_ok (Job.layers_ok.2 ⟨hl, rfl⟩), run_get_bind]
  rfl

theorem relateAndBuild_of_ok {relations : List Relation} {g : GroupState} {b : BuildState} {es : List Element}
    (hl : s.settings.entry Setting.layers = .ok layers) (hrel : buildRelations layers = .ok relations)
    (hset : layers.setEntry relationsKey (.list (relations.map Relation.toValue)) = .ok l)
    (hg : setGroups (s.settings.set Setting.layers l) { layers := l, nextId := s.nextId } = .ok () g)
    (hb : buildConsumption
      { settings := ((s.settings.set Setting.layers l).set Setting.layers g.layers).set Setting.layers
          (refreshGroups s.shownGroups g.layers),
        layers := refreshGroups s.shownGroups g.layers } = .ok es b) :
    ∃ t, relateAndBuild s = .ok es t ∧ t.settings = b.settings.set Setting.layers (relatedTypes b.layers) := by
  have hself : ∀ st v, Settings.entry (Fields.set Setting.layers v st) Setting.layers = .ok v := fun st v => Settings.entry_set_self ..
  have hgroup := Job.grouping_of_ok (s := { s with settings := s.settings.set Setting.layers l }) (hself ..) hg
  have hshow := showGroups_of_ok (s := { s with settings := (s.settings.set Setting.layers l).set Setting.layers g.layers
                                                nextId := g.nextId }) (hself ..)
  have hbuild := Job.building_of_ok
    (s := { s with settings := ((s.settings.set Setting.layers l).set Setting.layers g.layers).set Setting.layers
                     (refreshGroups s.shownGroups g.layers)
                   nextId := g.nextId }) (hself ..) hb
  have hkeep : Job.keepLayers l s = .ok () { s with settings := s.settings.set Setting.layers l } := rfl
  rw [relateAndBuild, run_bind_of_ok (Job.layers_ok.2 ⟨hl, rfl⟩), run_lift_bind_of_ok hrel,
    run_bind_of_ok (Job.layers_ok.2 ⟨hl, rfl⟩), run_lift_bind_of_ok hset, run_bind_of_ok hkeep]
  exact ⟨_, run_bind_ok.2 ⟨(), _, run_finally_ok.2 ⟨_, (), hgroup, hshow⟩, hbuild⟩, rfl⟩

theorem HasColumns.renamed (h : HasColumns o) {σ : String → String} : HasColumns (renameShown σ o) := by
  cases o with
  | object fs => exact h.sameBut (sameBut_renameShown σ fs) (by decide)
  | _ => exact h

theorem fillConsumption_renamed (h : fillConsumption s = .ok u s') {rows : Fields}
    (hl : s.settings.entry Setting.layers = .ok (.object [(baseKey, .object rows)])) (hrows : FilledRows (fun _ => True) rows)
    (hst : t.settings = s.settings) {σ : String → String} (hσ : ∀ i, σ (identifier (s.nextId + i)) = identifier (t.nextId + i)) :
    ∃ t' final, fillConsumption t = .ok () t' ∧ s'.settings.entry Setting.layers = .ok final ∧
      t'.settings.entry Setting.layers = .ok (renameUids σ final) := by
  obtain ⟨hf, hstored⟩ := Filled.fresh (.inr ⟨rows, rfl, hrows⟩) (Value.entry_ok.2 ⟨_, rfl, rfl⟩)
  obtain ⟨es, t1, l1, final, hrun, hl1, hfinal, rfl⟩ := fillConsumption_ok h
  obtain ⟨relations, l, g, st, b, hrel, hset, hg, hentries, hb, hcolumns, rfl⟩ := relateAndBuild_columns hrun hl hf
  obtain rfl : b.layers = l1 := ok_unique (Settings.entry_set_self ..) hl1
  have hpair := buildRelations_paired hf.base hrel
  obtain ⟨hhas, hfl, hre⟩ := grouped_alike hf hrel hset hg
  obtain ⟨lrows, hlrows⟩ := id hfl.base
  have hlnone : l.at? [.key consumptionKey] = none := Value.at?_setEntry_ne hset (by decide)
  -- procedures are in no groups at first
  have hplain : renameBase σ l = l := by
    refine renameBase_eq_self hlrows (fun p hp => ?_) σ
    have hat := (mem_proceduresOf hfl.base).1 hp
    rw [procedureAt?_congr (Value.at?_setEntry_ne hset (by decide))] at hat
    obtain ⟨b, name, category, -, ho⟩ := hstored hat
    rw [ho]
    rfl
  -- grouping
  have hstart : GroupState.Renamed σ relations { layers := l, nextId := s.nextId } { layers := l, nextId := t.nextId } :=
    ⟨hfl.base, hhas, hplain.symm, hσ⟩
  have hstrategy : Settings.entry (t.settings.set Setting.layers l) Setting.groupStrategy =
      Settings.entry (s.settings.set Setting.layers l) Setting.groupStrategy := by rw [hst]
  obtain ⟨_, g', hg', hgroups, -⟩ := setGroups_renamed hpair hstrategy hstart hg
  have hgnone : g.layers.at? [.key consumptionKey] = none := by
    have hspares := setGroups_spares hpair hhas (s.settings.set Setting.layers l) hlrows s.nextId
    rw [hg] at hspares
    exact (hspares _ (by decide)).trans hlnone
  have hgnone' : g'.layers.at? [.key consumptionKey] = none := by
    rw [hgroups.layers, at?_renameBase σ (by decide)]
    exact hgnone
  -- building
  rw [refreshGroups_eq_self hgnone] at hb
  have hbuild : BuildState.Renamed σ relations { settings := st, layers := g.layers }
      { settings := ((t.settings.set Setting.layers l).set Setting.layers g'.layers).set Setting.layers
          (refreshGroups t.shownGroups g'.layers),
        layers := refreshGroups t.shownGroups g'.layers } := by
    refine ⟨hgroups.related, ?_, fun k hk => ?_⟩
    · exact (refreshGroups_eq_self hgnone' _).trans hgroups.layers
    · rw [hentries k hk, ← hst, Settings.entry_set_ne hk, Settings.entry_set_ne hk, Settings.entry_set_ne hk]
  obtain ⟨b', hb', hbuilt⟩ := buildConsumption_renamed hpair hgroups.base hbuild hb
  have hbnone : b.layers.at? [.key consumptionKey] = none := by
    have hspares := buildConsumption_spares hpair hgroups.related hgroups.base st
    rw [hb] at hspares
    exact (hspares _ (by decide)).trans hgnone
  have hbase : IsBaseLayer b.layers := by
    have halike := hre.alike hfl.base hfl.records
    have hf1 := hfl.alike halike
    exact (buildConsumption_built hb hf1.base hf1.records hgroups.related hpair).1.base'
  have hcolumns' : ∀ p ∈ proceduresOf b'.layers, HasColumns p.2.2 := by
    intro p hp
    rw [hbuilt.layers, mem_proceduresOf hbase.renamed, procedureAt?_renameBase, Option.map_eq_some_iff] at hp
    obtain ⟨o, ho, hpo⟩ := hp
    rw [← hpo]
    exact (hcolumns _ ((mem_proceduresOf hbase).2 ho)).renamed
  -- putting the elements in
  have hl' : t.settings.entry Setting.layers = .ok (.object [(baseKey, .object rows)]) := by rw [hst]; exact hl
  obtain ⟨t1, hrun', ht1⟩ := relateAndBuild_of_ok hl' hrel hset hg' hb'
  rw [relatedTypes_eq hcolumns', hbuilt.layers] at ht1
  have hlayers : t1.settings.entry Setting.layers = .ok (renameBase σ b.layers) := by rw [ht1, Settings.entry_set_self]
  rw [fillConsumption, run_bind_of_ok hrun', run_bind_of_ok (Job.layers_ok.2 ⟨hlayers, rfl⟩),
    run_lift_bind_of_ok (renameUids_setEntry σ hbnone hfinal)]
  exact ⟨_, final, rfl, Settings.entry_set_self .., Settings.entry_set_self ..⟩

/-! ## Calls that are the same when they are prepared again -/

theorem processTrace_filled (h : processTrace raiseOnError logStatements own s = .ok u s')
    (hl : s.settings.entry Setting.layers = .ok (.object [])) (htruthy : s.trace.isTruthy = true) :
    ∃ log t rows, processAlgos raiseOnError own s.trace { s with log } = .ok () t ∧ fillConsumption t = .ok () s' ∧
      t.settings.entry Setting.layers = .ok (.object [(baseKey, .object rows)]) ∧ FilledRows (fun _ => True) rows ∧
      s'.trace = t.trace := by
  rcases processTrace_cases h with ⟨hno, -⟩ | ⟨-, t0, t, ht0, halgos, hfill⟩
  · rw [htruthy] at hno
    cases hno
  obtain ⟨log, rfl⟩ : ∃ log, t0 = { s with log } := by
    rcases ht0 with rfl | ⟨text, ht0⟩
    · exact ⟨_, rfl⟩
    · exact ⟨_, (run_modify_ok.1 ht0).symm⟩
  have hprogress : Progress (fun _ => True) (fun _ => True) s t := by
    refine keeps_processAlgos_called (fun hJ _ hrun => keeps_processCall storesAs_trivial s own _ hrun hJ)
      (fun hJ log => ⟨hJ.settings, hJ.layers, hJ.trace⟩) raiseOnError s.trace halgos ?_
    exact ⟨fun _ _ => rfl, ⟨_, hl, .inl rfl⟩, trivial⟩
  obtain ⟨layers, hlayers, hfilled⟩ := hprogress.layers
  -- relations are built from the base layer, so there is one
  obtain ⟨es, t', l', l'', hrel, -⟩ := fillConsumption_ok hfill
  obtain ⟨relations, -, -, -, -, hrelations, -⟩ := relateAndBuild_ok hrel hlayers
  obtain ⟨base, hbase, -⟩ := bind_ok.1 hrelations
  have htrace := fillConsumption_trace hfill hlayers (hfilled.fresh hbase).1
  rcases hfilled with rfl | ⟨rows, rfl, hrows⟩
  · cases hbase
  · exact ⟨log, t, rows, halgos, hfill, hlayers, hrows, htrace⟩

theorem processTrace_raw (h : processTrace raiseOnError logStatements own s = .ok u s') (htruthy : s.trace.isTruthy = true)
    (hlog : logStatements = true) : ∃ text, Trace.raw s.trace = .ok text := by
  subst hlog
  simp only [processTrace, run_parts, Job.layers, Job.setting] at h
  obtain ⟨_, -, h⟩ := h
  simp only [htruthy, if_not_true, if_true] at h
  obtain ⟨text, hraw, -⟩ := run_lift_bind_ok.1 h
  exact ⟨text, hraw⟩

theorem processTrace_of_ok {P : Session → Prop} (hl : t.settings.entry Setting.layers = .ok layers) (htruthy : t.trace.isTruthy = true)
    (hraw : logStatements = true → ∃ text, Trace.raw t.trace = .ok text)
    (hrun : ∀ log, ∃ t1, processAlgos raiseOnError own t.trace { t with log } = .ok () t1 ∧ ∃ t', fillConsumption t1 = .ok () t' ∧ P t') :
    ∃ t', processTrace raiseOnError logStatements own t = .ok () t' ∧ P t' := by
  rw [processTrace, run_get_bind, run_bind_of_ok (Job.layers_ok.2 ⟨hl, rfl⟩), htruthy]
  cases logStatements with
  | false =>
    obtain ⟨t1, halgos, t', hfill, hP⟩ := hrun t.log
    exact ⟨t', run_bind_ok.2 ⟨(), t1, halgos, hfill⟩, hP⟩
  | true =>
    obtain ⟨text, htext⟩ := hraw rfl
    obtain ⟨t1, halgos, t', hfill, hP⟩ := hrun (t.log ++ [("debug", text)])
    refine ⟨t', ?_, hP⟩
    simp only [if_not_true, if_true]
    rw [run_lift_bind_of_ok htext]
    exact run_bind_ok.2 ⟨(), _, rfl, run_bind_ok.2 ⟨(), t1, halgos, hfill⟩⟩

theorem processTrace_fresh_steady (h : processTrace raiseOnError logStatements own s = .ok () s')
    (hl : s.settings.entry Setting.layers = .ok (.object [])) (hst : t.settings = s.settings) (ht : t.trace = s'.trace)
    (hsteady : ∀ {x call}, IsCalled s.trace x → s.trace.at? (callPlace x) = some call → Steady call) :
    ∃ t' layers, processTrace raiseOnError logStatements own t = .ok () t' ∧ s'.settings.entry Setting.layers = .ok layers ∧
      t'.settings.entry Setting.layers = .ok (renameUids (shiftIdentifier s.nextId t.nextId) layers) := by
  have hl' : t.settings.entry Setting.layers = .ok (.object []) := by rw [hst]; exact hl
  cases htruthy : s.trace.isTruthy with
  | false =>
    obtain rfl : s = s' := by
      rw [processTrace_of_falsy htruthy hl] at h
      exact (EStateM.Result.ok.inj h).2
    exact ⟨t, _, processTrace_of_falsy (ht ▸ htruthy) hl' .., hl, hl'⟩
  | true =>
    obtain ⟨log, s1, rows, halgos, hfill, hrows, hfilled, htrace⟩ := processTrace_filled h hl htruthy
    have hagain : ∀ log', _ := fun log' =>
      processAlgos_again hsteady (s := { s with log }) rfl halgos (t := { t with log := log' }) hst (ht.trans htrace)
    have hsettling := (hagain []).1
    obtain ⟨t', hrun, layers, hs', ht'⟩ := processTrace_of_ok (P := fun t' => ∃ layers, s'.settings.entry Setting.layers = .ok layers ∧
        t'.settings.entry Setting.layers = .ok (renameUids (shiftIdentifier s.nextId t.nextId) layers))
      hl' (hsettling.rows.algos.isTruthy.trans htruthy)
      (fun hlog => (raw_settling hsettling) ▸ processTrace_raw h htruthy hlog) fun log' => by
        obtain ⟨-, t1, halgos', hst1, -, hid⟩ := hagain log'
        refine ⟨t1, halgos', ?_⟩
        have hid' := processAlgos_nextId halgos
        obtain ⟨t', layers, hfill', hs', ht'⟩ := fillConsumption_renamed hfill hrows hfilled hst1
          (σ := shiftIdentifier s.nextId t.nextId) fun i => by
            rw [hid', hid]
            exact shiftIdentifier_identifier ..
        exact ⟨t', hfill', layers, hs', ht'⟩
    exact ⟨t', layers, hrun, hs', ht'⟩

/-! ## Blocks with inputs of their own -/

/-- A call of the trace that is a block, with the inputs and the outputs of its first group, and that inputs were traced for. -/
structure BlockAt (x : ProcedureName) (ins outs : List Value) (trace : Value) : Prop where
  called : IsCalled trace x
  block : ∃ call, trace.at? (callPlace x) = some call ∧ BlockOf call ins outs ∧ call.has "input_tables" = .ok true

def HasInputs (x : ProcedureName) (n : Nat) (trace : Value) : Prop :=
  ∃ ts, trace.at? (callPlace x ++ [.key "input_tables"]) = some (.list ts) ∧ n ≤ ts.length

theorem HasInputs.of_le {m : Nat} (h : HasInputs x n trace) (hm : m ≤ n) : HasInputs x m trace := by
  obtain ⟨ts, hts, hn⟩ := h
  exact ⟨ts, hts, Nat.le_trans hm hn⟩

theorem BlockOf.unique {call : Value} {ins' outs' : List Value} (h : BlockOf call ins outs) (h' : BlockOf call ins' outs') :
    ins' = ins ∧ outs' = outs := by
  obtain ⟨auto, entries, hauto, hentries, hgroup⟩ := h.group
  obtain ⟨auto', entries', hauto', hentries', hgroup'⟩ := h'.group
  obtain rfl := ok_unique hauto hauto'
  obtain rfl := ok_unique hentries hentries'
  exact Prod.mk.inj (ok_unique hgroup' hgroup)

theorem PreparedAs.block {call call' : Value} {p : Prepared} (h : PreparedAs call p call') (hb : BlockOf call ins outs)
    (hhas : call.has "input_tables" = .ok true) :
    ∃ w, call.at? [.key "input_tables"] = some w ∧ ExtendedBy ins w p.inputTables ∧
      call'.at? [.key "input_tables"] = some p.inputTables := by
  rcases h.parts with ⟨-, hplain⟩ | ⟨ins', outs', hblock⟩
  · exact absurd hplain.plain hb.not_unblocked
  · obtain ⟨rfl, rfl⟩ := hb.unique hblock.block
    obtain ⟨w, hw, hext, hat⟩ := hblock.inputs
    obtain ⟨fs, rfl⟩ := h.rest.symm.isObject
    rw [Value.has_object, Except.ok.injEq, Option.isSome_iff_exists] at hhas
    obtain ⟨v, hv⟩ := hhas
    replace hv := Value.entry_eq_ok_iff.1 (Value.entry_ok.2 ⟨fs, rfl, hv⟩)
    rw [Value.entryOr_at?, hv] at hw
    obtain rfl : v = w := Except.ok.inj hw
    rw [hv] at hat
    exact ⟨v, hv, hext, hat⟩

section Growth

variable {y : ProcedureName}

theorem BlockAt.processed (h : BlockAt x ins outs s.trace) (hrun : processCall own x.1 x.2 s = .ok u s') :
    BlockAt x ins outs s'.trace ∧ ∃ w v, s.trace.at? (callPlace x ++ [.key "input_tables"]) = some w ∧
      ExtendedBy ins w v ∧ s'.trace.at? (callPlace x ++ [.key "input_tables"]) = some v := by
  obtain ⟨p, call, call', functions, hcall, hprep, hnow, -⟩ := processCall_trace hrun
  obtain ⟨c, hc, hb, hhas⟩ := h.block
  obtain rfl := Option.mem_unique hcall hc
  obtain ⟨fs, statements, hfs, -⟩ := h.called.call
  obtain rfl := Option.mem_unique hcall hfs
  have has := prepare_as hprep
  obtain ⟨w, hw, hext, hw'⟩ := has.block hb hhas
  obtain ⟨gs, rfl⟩ := has.rest.isObject
  have hs := Value.sameBut_putAt gs "function" functions
  have hall : (Value.object fs).SameBut ["input_tables", "output_vars", "function"] _ := (has.rest.mono (by simp)).trans (hs.mono (by simp))
  have hinputs := (hs.at? (k := "input_tables") (by decide) []).trans hw'
  refine ⟨⟨⟨h.called.1, ?_⟩, _, hnow, hb.sameBut hall (by decide) (by decide), ?_⟩, w, p.inputTables, ?_, hext, ?_⟩
  · obtain ⟨statements, hsql⟩ := h.called.2
    refine ⟨statements, ?_⟩
    rw [Value.at?_append, hcall] at hsql
    rw [Value.at?_append, hnow]
    exact (hall.at? (by decide) []).trans hsql
  · exact Value.has_of_entry (Value.entry_eq_ok_iff.2 hinputs)
  · rw [Value.at?_append, hcall]
    exact hw
  · rw [Value.at?_append, hnow]
    exact hinputs

theorem BlockAt.others (h : BlockAt x ins outs s.trace)
    (hsame : ∀ q, s'.trace.at? (callPlace x ++ q) = s.trace.at? (callPlace x ++ q)) : BlockAt x ins outs s'.trace where
  called := ⟨h.called.1, by rw [hsame]; exact h.called.2⟩
  block := by
    have := hsame []
    rw [List.append_nil] at this
    rw [this]
    exact h.block

theorem BlockAt.call (h : BlockAt x ins outs s.trace) (hrun : processCall own y.1 y.2 s = .ok u s') : BlockAt x ins outs s'.trace := by
  by_cases hxy : x = y
  · subst hxy
    exact (h.processed hrun).1
  · obtain ⟨p, call, call', functions, -, -, -, hothers⟩ := processCall_trace hrun
    exact h.others (hothers x hxy)

theorem HasInputs.processed (hn : HasInputs x n s.trace) (h : BlockAt x ins outs s.trace) (hrun : processCall own x.1 x.2 s = .ok u s') :
    HasInputs x (n + ins.length) s'.trace := by
  obtain ⟨ts, hts, hlen⟩ := hn
  obtain ⟨-, w, v, hw, hext, hv⟩ := h.processed hrun
  obtain rfl := Option.mem_unique hts hw
  refine ⟨ts ++ ins, ?_, by rw [List.length_append]; omega⟩
  rw [hv]
  rcases hext with ⟨rfl, rfl⟩ | ⟨xs, hxs, rfl⟩
  · rw [List.append_nil]
  · cases hxs
    rfl

theorem HasInputs.call (hn : HasInputs x n s.trace) (h : BlockAt x ins outs s.trace) (hrun : processCall own y.1 y.2 s = .ok u s') :
    HasInputs x n s'.trace := by
  by_cases hxy : x = y
  · subst hxy
    exact (hn.processed h hrun).of_le (Nat.le_add_right ..)
  · obtain ⟨p, call, call', functions, -, -, -, hothers⟩ := processCall_trace hrun
    rw [HasInputs, hothers x hxy]
    exact hn

theorem processAlgos_grows (hrun : processAlgos raiseOnError own s.trace s = .ok u s') (h : BlockAt x ins outs s.trace)
    (hn : HasInputs x n s.trace) : BlockAt x ins outs s'.trace ∧ HasInputs x (n + ins.length) s'.trace := by
  have hstart : BlockAt x ins outs s.trace ∧ HasInputs x n s.trace := ⟨h, hn⟩
  have hkeep : ∀ {y t u t'}, BlockAt x ins outs t.trace ∧ HasInputs x n t.trace → IsCalled t.trace y →
      processCall own y.1 y.2 t = .ok u t' → BlockAt x ins outs t'.trace ∧ HasInputs x n t'.trace :=
    fun hJ _ hcall => ⟨hJ.1.call hcall, hJ.2.call hJ.1 hcall⟩
  have hlog : ∀ {t : Session}, BlockAt x ins outs t.trace ∧ HasInputs x n t.trace → ∀ log,
      BlockAt x ins outs ({ t with log } : Session).trace ∧ HasInputs x n ({ t with log } : Session).trace :=
    fun hJ _ => hJ
  refine ⟨(keeps_processAlgos_called hkeep hlog raiseOnError s.trace hrun hstart).1, ?_⟩
  exact processAlgos_brings (K := fun t => HasInputs x (n + ins.length) t.trace) hkeep hlog
    (fun hJ hK _ hcall => hK.call hJ.1 hcall) (fun hK _ => hK) (fun hJ => hJ.1.called)
    (fun hJ hcall => hJ.2.processed hJ.1 hcall) hrun h.called hstart

end Growth

theorem Current.inputs (h : Current trace x o) (hb : BlockAt x ins outs trace) (hne : ins ≠ []) :
    ∃ ts us, trace.at? (callPlace x ++ [.key "input_tables"]) = some (.list ts) ∧ partsUnder "input_tables" o = .ok us ∧
      us.length = ts.length := by
  obtain ⟨call, p, call', now, v, -, has, hnow, hs, hv, hselects, -⟩ := h.call
  obtain ⟨c, hc, hblock, hhas⟩ := hb.block
  obtain rfl := Option.mem_unique hnow hc
  have hall : call.SameBut ["input_tables", "output_vars", "function"] now := (has.rest.mono (by simp)).trans (hs.mono (by simp))
  have hbefore : BlockOf call ins outs := hblock.sameBut hall.symm (by decide) (by decide)
  rcases has.parts with ⟨-, hplain⟩ | ⟨ins', outs', hprepared⟩
  · exact absurd hplain.plain hbefore.not_unblocked
  obtain ⟨rfl, rfl⟩ := hbefore.unique hprepared.block
  obtain ⟨w, -, hext, hat⟩ := hprepared.inputs
  -- the inputs are traced, so they are those that the block was processed from
  have hnowinputs : now.at? [.key "input_tables"] = some p.inputTables := by
    obtain ⟨fs, rfl⟩ := hall.isObject
    rw [Value.has_object, Except.ok.injEq, Option.isSome_iff_exists] at hhas
    obtain ⟨v', hv'⟩ := hhas
    replace hv' := Value.entry_eq_ok_iff.1 (Value.entry_ok.2 ⟨fs, rfl, hv'⟩)
    rw [hs.at? (by decide), hat, Option.map_eq_some_iff] at hv'
    obtain ⟨v'', hv'', -⟩ := hv'
    rw [hs.at? (by decide), hat, hv'']
    rfl
  obtain ⟨ts, us, hts, hus, hforall⟩ := hselects
  rcases hext with ⟨hnil, -⟩ | ⟨xs, -, hinputs⟩
  · exact absurd hnil hne
  rw [hinputs] at hts hnowinputs
  cases hts
  refine ⟨_, us, ?_, (partsUnder_of_entry hv).trans hus, hforall.length_eq.symm⟩
  rw [Value.at?_append, hnow]
  exact hnowinputs

theorem procedureAt?_renameUids (σ : String → String) (layers : Value) (x : ProcedureName) :
    procedureAt? (renameUids σ layers) x = (procedureAt? layers x).map (renameShown σ) := by
  have happart : Place.Apart [.key consumptionKey] [.key baseKey] := .inl (by decide)
  rw [← procedureAt?_renameBase]
  exact procedureAt?_congr (Value.at?_modifyAt_of_apart _ happart _) x

theorem processTrace_fresh_block {t' : Session} (h : processTrace raiseOnError logStatements own s = .ok () s')
    (hl : s.settings.entry Setting.layers = .ok (.object [])) (hst : t.settings = s.settings) (ht : t.trace = s'.trace)
    (hx : BlockAt x ins outs s.trace) (hne : ins ≠ []) (h' : processTrace raiseOnError logStatements own t = .ok () t')
    (hlayers : s'.settings.entry Setting.layers = .ok layers) (σ : String → String) :
    t'.settings.entry Setting.layers ≠ .ok (renameUids σ layers) := by
  have hl' : t.settings.entry Setting.layers = .ok (.object []) := by rw [hst]; exact hl
  -- the block is in the trace of either run
  have hx1 : BlockAt x ins outs s'.trace := by
    obtain ⟨log, s1, rows, halgos, -, -, -, htrace⟩ := processTrace_filled h hl hx.called.truthy
    rw [htrace]
    exact keeps_processAlgos_called (J := fun t => BlockAt x ins outs t.trace) (fun hJ _ hrun => hJ.call hrun)
      (fun hJ _ => hJ) raiseOnError s.trace halgos hx
  have hx' : BlockAt x ins outs t.trace := by rw [ht]; exact hx1
  obtain ⟨log, t1, rows, halgos, -, -, -, htrace⟩ := processTrace_filled h' hl' hx'.called.truthy
  -- the procedures of both runs
  rcases processTrace_first h hl with ⟨hno, -⟩ | ⟨-, final, relations, elements, hdone⟩
  · rw [hx.called.truthy] at hno
    cases hno
  rcases processTrace_first h' hl' with ⟨hno, -⟩ | ⟨-, final', relations', elements', hdone'⟩
  · rw [hx'.called.truthy] at hno
    cases hno
  obtain ⟨o, ho⟩ := hdone.stored x hx1.called
  obtain ⟨ts, us, hts, hus, hlen⟩ := (hdone.traced.current ho).1.inputs hx1 hne
  obtain ⟨hx2, hgrown⟩ := processAlgos_grows (s := { t with log }) halgos hx' ⟨ts, by rw [ht]; exact hts, Nat.le_refl _⟩
  rw [← htrace] at hx2 hgrown
  obtain ⟨o', ho'⟩ := hdone'.stored x hx2.called
  obtain ⟨ts', us', hts', hus', hlen'⟩ := (hdone'.traced.current ho').1.inputs hx2 hne
  obtain ⟨ts'', hts'', hle⟩ := hgrown
  obtain rfl := Value.list.inj (Option.mem_unique hts' hts'')
  -- the second run has more inputs
  intro heq
  obtain rfl := ok_unique hdone.traced.held hlayers
  obtain rfl := ok_unique hdone'.traced.held heq
  rw [procedureAt?_renameUids, ho] at ho'
  cases ho'
  rw [partsUnder_renameShown (by decide), hus] at hus'
  cases hus'
  have hpos := List.length_pos_iff.2 hne
  omega

/-! ## Both runs from scratch -/

/-- A trace that is processed from scratch and then once more, by a session with the same settings. -/
theorem processTrace_fresh_again {raiseOnError logStatements own : Bool} {s s' t : Session}
    (h : processTrace raiseOnError logStatements own s = .ok () s')
    (hl : s.settings.entry Setting.layers = .ok (.object [])) (hst : t.settings = s.settings) (ht : t.trace = s'.trace) :
    ((∀ x call, IsCalled s.trace x → s.trace.at? (callPlace x) = some call → Steady call) →
      ∃ t' layers, processTrace raiseOnError logStatements own t = .ok () t' ∧ s'.settings.entry Setting.layers = .ok layers ∧
        t'.settings.entry Setting.layers = .ok (renameUids (shiftIdentifier s.nextId t.nextId) layers)) ∧
    ∀ x ins outs, BlockAt x ins outs s.trace → ins ≠ [] → ∀ t' layers, processTrace raiseOnError logStatements own t = .ok () t' →
        s'.settings.entry Setting.layers = .ok layers →
        ∀ σ, t'.settings.entry Setting.layers ≠ .ok (renameUids σ layers) :=
  ⟨fun hsteady => processTrace_fresh_steady h hl hst ht fun hx hcall => hsteady _ _ hx hcall,
    fun _ _ _ hx hne _ _ h' hlayers σ => processTrace_fresh_block h hl hst ht hx hne h' hlayers σ⟩

def Session.afresh (s s' : Session) : Session := { s with trace := s'.trace, nextId := s'.nextId }

theorem repeatedSession_unblocked {fs : Fields} (h : repeatedSession.trace.at? (callPlace x) = some (.object fs)) :
    Unblocked (.object fs) := by
  rw [callPlace, Value.at?_cons, Option.bind_eq_some_iff] at h
  obtain ⟨functions, hrow, h⟩ := h
  simp only [repeatedSession, Value.at?, List.lookup_cons, List.lookup_nil] at hrow
  split at hrow
  · cases hrow
    simp only [Value.at?, List.lookup_cons, List.lookup_nil] at h
    split at h
    · obtain rfl := Value.object.inj (Option.some.inj h)
      exact .inl rfl
    · cases h
  · cases hrow

theorem processTrace_fresh_again_sample : ∃ s' t' layers, processTrace true false true repeatedSession = .ok () s' ∧
    processTrace true false true (repeatedSession.afresh s') = .ok () t' ∧
    s'.settings.entry Setting.layers = .ok layers ∧
    t'.settings.entry Setting.layers = .ok (renameUids (shiftIdentifier repeatedSession.nextId s'.nextId) layers) := by
  obtain ⟨s', -, h, -⟩ := repeatedSession_runs
  obtain ⟨t', layers, hagain⟩ := (processTrace_fresh_again (t := repeatedSession.afresh s') h rfl rfl rfl).1 fun x call hx hcall => by
      obtain ⟨fs, -, hfs, -⟩ := hx.call
      obtain rfl := Option.some.inj (hcall.symm.trans hfs)
      exact (repeatedSession_unblocked hcall).steady
  exact ⟨s', t', layers, h, hagain⟩

def blockTable : Value :=
  .object [("auto_name", .text "in_"), ("name", .text "T"), ("select", .text "SELECT * FROM S.D"), ("table_type", .text "(I INTEGER)")]

theorem firstGroup_blockTable : firstGroup false [blockTable] = .ok ([blockTable], []) := by
  have hin : (Value.text "in_").has "in_" = .ok true := by decide
  have hout : (Value.text "in_").has "out_" = .ok false := by decide
  have hname : blockTable.entry "auto_name" = .ok (.text "in_") := rfl
  have hhas : blockTable.has "auto_name" = .ok true := rfl
  simp only [firstGroup, hhas, hname, hin, hout, bind, Except.bind, pure, Except.pure]
  rfl

def growingSession : Session where
  settings := repeatedSession.settings ++ [(Setting.entityContext, .text "c"), (Setting.schema, .text "S"), (Setting.outputPath, .text "o")]
  trace := .object [("RandomForestClassifier", .object [("F", .object [("sql", .list [.text "DO"]),
    ("auto", .list [blockTable]), ("input_tables", .list [])])])]

/-- The second run of the block reads its table twice, so it does not give the layers of the first. -/
theorem processTrace_fresh_again_differs : ∃ s' t' layers, processTrace true false true growingSession = .ok () s' ∧
    processTrace true false true (growingSession.afresh s') = .ok () t' ∧
    s'.settings.entry Setting.layers = .ok layers ∧
    ∀ σ, t'.settings.entry Setting.layers ≠ .ok (renameUids σ layers) := by
  have hrun : succeedsWith (fun _ s' =>
      succeedsWith (fun _ _ => true) (processTrace true false true (growingSession.afresh s')))
      (processTrace true false true growingSession) = true := by decide +kernel
  obtain ⟨_, s', h, hagain⟩ := exists_of_succeedsWith hrun
  obtain ⟨_, t', h', -⟩ := exists_of_succeedsWith hagain
  rcases processTrace_first h rfl with ⟨hno, -⟩ | ⟨-, layers, relations, elements, hdone⟩
  · exact absurd hno (by decide)
  have hx : BlockAt ("RandomForestClassifier", "F") [blockTable] [] growingSession.trace :=
    ⟨⟨by decide, _, rfl⟩, _, rfl, ⟨⟨_, "DO", rfl, by decide, by decide⟩, _, _, rfl, rfl, firstGroup_blockTable⟩, rfl⟩
  exact ⟨s', t', layers, h, h', hdone.traced.held,
    processTrace_fresh_block (t := growingSession.afresh s') h rfl rfl rfl hx (List.cons_ne_nil _ _) h' hdone.traced.held⟩

end TraceArtifacts
