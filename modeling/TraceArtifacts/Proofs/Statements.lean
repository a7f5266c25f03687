import TraceArtifacts.Proofs.Generations

/-!
# Proofs: the statements of a consumption procedure

A procedure is written with the statements of its element: those of the inputs, those of the calls, and those that keep tables.
-/

namespace TraceArtifacts

open TraceArtifacts.Graph

variable {e : Element} {relations : List Relation} {layers : Value}

/-! ## One statement for each item -/

def OutputItem.isVar : OutputItem → Bool
  | .table _ => false
  | .var _ => true

def OutputTable.keptText (schema : String) (n : Nat) (t : OutputTable) : String :=
  keepText (keptName schema n t.dbObjectName).display t.name.display

def OutputItem.keptText? (schema : String) (n : Nat) : OutputItem → Option String
  | .table t => some (t.keptText schema n)
  | .var _ => none

def itemTexts (schema : String) (n : Nat) (e : Element) : Outcome (List String) := do
  let inputs ← (e.inputs.map InputItem.toValue).mapM synonymStatementText
  let body ← (e.body.map BodyItem.toValue).mapM statementText
  return inputs ++ body ++ e.outputs.filterMap (·.keptText? schema n)

def Element.variables (e : Element) : Nat := e.outputs.countP OutputItem.isVar

def TablesFirst (os : List OutputItem) : Prop :=
  ∃ (tables : List OutputTable) (vars : List OutputVariable), os = tables.map .table ++ vars.map .var

theorem Built.tablesFirst (h : Built layers relations e) : TablesFirst e.outputs := by
  have hof : ∀ {linkType x c}, ContributedAs layers linkType x c → TablesFirst c.outputs := by
    rintro linkType x c ⟨l, o, -, -, hc⟩
    obtain ⟨-, -, tables, vars, -, -, -, -, houts⟩ := hc.outputs
    exact ⟨tables, vars, houts⟩
  cases h with
  | alone hc => exact hof hc
  | merged hp hc => exact hof hc

theorem Built.body_ne_nil (h : Built layers relations e) : e.body ≠ [] := by
  cases h <;> simp [elementOf, mergedOf]

section Outputs

variable (schema : String) (n : Nat)

theorem filterMap_keptText? (tables : List OutputTable) (vars : List OutputVariable) :
    (tables.map .table ++ vars.map .var : List OutputItem).filterMap (·.keptText? schema n) = tables.map (·.keptText schema n) := by
  have hvars : (vars.map .var : List OutputItem).filterMap (·.keptText? schema n) = [] := by
    simp [OutputItem.keptText?]
  rw [List.filterMap_append, hvars, List.append_nil, List.filterMap_map]
  exact congrFun List.filterMap_eq_map' tables

theorem countP_isVar (tables : List OutputTable) (vars : List OutputVariable) :
    (tables.map .table ++ vars.map .var : List OutputItem).countP OutputItem.isVar = vars.length := by
  have htables : (tables.map .table : List OutputItem).countP OutputItem.isVar = 0 := by
    simp [List.countP_eq_zero, OutputItem.isVar]
  have hvars : (vars.map .var : List OutputItem).countP OutputItem.isVar = (vars.map OutputItem.var).length :=
    List.countP_eq_length.2 (by simp [OutputItem.isVar])
  rw [List.countP_append, htables, hvars, List.length_map, Nat.zero_add]

theorem outputTexts_tables (tables : List OutputTable) (rest : List Value) : ∀ last : Option String,
    Container.outputTexts last (tables.map (fun t => outputAfter schema n (.table t)) ++ rest) = (do
      let texts ← Container.outputTexts ((tables.map (·.keptText schema n)).getLast?.or last) rest
      return tables.map (·.keptText schema n) ++ texts) := by
  induction tables with
  | nil =>
    intro last
    exact (bind_pure _).symm
  | cons t tables ih =>
    intro last
    have hhas := Value.has_of_entry (vars_outputAfter schema n t)
    have hlast : ((t :: tables).map (·.keptText schema n)).getLast?.or last =
        (tables.map (·.keptText schema n)).getLast?.or (some (t.keptText schema n)) := by
      rw [List.map_cons, List.getLast?_cons]
      cases (tables.map (·.keptText schema n)).getLast? <;> rfl
    rw [List.map_cons, List.cons_append, Container.outputTexts, hhas, statementText_outputAfter, hlast]
    simp only [Outcome, bind, Except.bind, if_true, pure, Except.pure]
    rw [← OutputTable.keptText, ih]
    simp only [bind, Except.bind, pure, Except.pure]
    cases Container.outputTexts ((tables.map (·.keptText schema n)).getLast?.or (some (t.keptText schema n))) rest <;> rfl

theorem outputTexts_vars (text : String) (vars : List OutputVariable) :
    Container.outputTexts (some text) (vars.map OutputVariable.toValue) = .ok (List.replicate vars.length text) := by
  induction vars with
  | nil => rfl
  | cons v vars ih =>
    have hhas : v.toValue.has "sql_vars" = .ok false := rfl
    rw [List.map_cons, Container.outputTexts, hhas]
    simp only [bind, Except.bind, Bool.false_eq_true, if_false, pure, Except.pure, ih]
    rfl

end Outputs

theorem ne_nil_of_mapM {f : α → Outcome β} {xs : List α} {ys : List β} (h : xs.mapM f = .ok ys) (hxs : xs ≠ []) : ys ≠ [] := by
  have hlen := (mapM_ok.1 h).length_eq
  intro hys
  rw [hys, List.length_nil, List.length_eq_zero_iff] at hlen
  exact hxs hlen

theorem elementTexts_eq (hbody : e.body ≠ []) (houts : TablesFirst e.outputs) (last : Option String) (schema : String) (n : Nat) :
    Container.elementTexts last (partsAfter schema n e) = (do
      let texts ← itemTexts schema n e
      return texts ++ List.replicate e.variables (texts.getLast?.getD "")) := by
  obtain ⟨tables, vars, hos⟩ := houts
  have hkept := filterMap_keptText? schema n tables vars
  have hrecords : e.outputs.map (outputAfter schema n) =
      tables.map (fun t => outputAfter schema n (.table t)) ++ vars.map OutputVariable.toValue := by
    rw [hos, List.map_append, List.map_map, List.map_map]
    rfl
  rw [Container.elementTexts, itemTexts, Element.variables]
  simp only [partsAfter, Value.members, hrecords]
  rw [hos, hkept, countP_isVar]
  simp only [Outcome, bind, Except.bind, pure, Except.pure]
  cases (e.inputs.map InputItem.toValue).mapM synonymStatementText with
  | error f => rfl
  | ok ins =>
    cases hcall : (e.body.map BodyItem.toValue).mapM statementText with
    | error f => rfl
    | ok calls =>
      -- there is a call, so the last statement before the outputs is one of the element
      obtain ⟨call, hlast⟩ : ∃ call, (ins ++ calls).getLast? = some call := by
        have hcalls : calls ≠ [] := ne_nil_of_mapM hcall (by simpa using hbody)
        exact ⟨_, List.getLast?_eq_some_getLast (List.append_ne_nil_of_right_ne_nil _ hcalls)⟩
      have hall : (ins ++ calls ++ tables.map (·.keptText schema n)).getLast? =
          (tables.map (·.keptText schema n)).getLast?.or (some call) := by
        rw [List.getLast?_append, hlast]
      obtain ⟨text, htext⟩ : ∃ text, (tables.map (·.keptText schema n)).getLast?.or (some call) = some text := by
        cases (tables.map (·.keptText schema n)).getLast? with
        | none => exact ⟨call, rfl⟩
        | some text => exact ⟨text, rfl⟩
      simp only [hlast, hall, htext]
      rw [outputTexts_tables, htext, outputTexts_vars]
      exact congrArg Except.ok (List.append_assoc ..).symm

/-! ## Procedures -/

def Element.writtenTexts (e : Element) (texts : List String) : List String :=
  texts ++ List.replicate e.variables (texts.getLast?.getD "")

theorem Element.writtenTexts_eq_self (e : Element) (texts : List String) : e.writtenTexts texts = texts ↔ e.variables = 0 := by
  simp [writtenTexts]

/-- The procedure of an element is written, after a number of generations of graphs. -/
structure WritesProcedure (mapSources : Bool) (schema : String) (n : Nat) (e : Element) (t t' : Session) : Prop where
  run : ∃ last body, Container.writeElement mapSources last (elementAfter schema n e) t = .ok (some body) t'
  file : ∃ texts body signature content directory, itemTexts schema n e = .ok texts ∧ texts ≠ [] ∧
    (e.writtenTexts texts = texts ↔ ∀ v, .var v ∉ e.outputs) ∧
    (∀ last, Container.elementTexts last (partsAfter schema n e) = .ok (e.writtenTexts texts)) ∧
    Container.mappedIf mapSources (joinLines (e.writtenTexts texts)) t = .ok body t ∧
    Container.signature .null (partsAfter schema n e).outputs = .ok signature ∧
    substituteFields [("<<SQL_PLACEHOLDER>>", .text body), ("<<PROCEDURE_NAME>>", .text e.name),
      ("<<INTERFACE>>", .text signature)] Container.FileText.procedure = .ok content ∧
    t.settings.entry Setting.proceduresPath = .ok (.text directory) ∧
    t'.tree.read t'.cwd (joinPaths directory (e.name ++ ".hdbprocedure")) = .ok content

theorem Element.variables_eq_zero (e : Element) : e.variables = 0 ↔ ∀ v, .var v ∉ e.outputs := by
  rw [Element.variables, List.countP_eq_zero]
  refine ⟨fun h v hv => h _ hv rfl, fun h o ho hvar => ?_⟩
  cases o with
  | table t => cases hvar
  | var v => exact h v ho

theorem writeElement_writes (he : Built layers relations e) {mapSources : Bool} {schema : String} {n : Nat} {last r : Option String}
    {t t' : Session} (h : Container.writeElement mapSources last (elementAfter schema n e) t = .ok r t') :
    WritesProcedure mapSources schema n e t t' := by
  have hrun := h
  obtain ⟨statements, hsql, hparts⟩ := sql_elementAfter schema n e
  have hhas := Value.has_of_entry hsql
  have hname : (elementAfter schema n e).entry "name" = .ok (.text e.name) := rfl
  simp only [Container.writeElement, hhas, hname, hsql, hparts, lift_ok_eq, pure_bind, Bool.not_true, Bool.false_eq_true, if_false, Job.setting, run_parts, run_pure_ok] at h
  obtain ⟨written, hwritten, signature, hsignature, body, _, hbody, path,
    hpath, _, _, hwrite, rfl, rfl⟩ := h
  obtain rfl := Container.mappedIf_ok hbody
  obtain ⟨directory, content, rfl, hcontent, hread⟩ := Container.writeProcedure_ok hwrite
  rw [elementTexts_eq he.body_ne_nil he.tablesFirst] at hwritten
  obtain ⟨texts, htexts, hwritten⟩ := bind_ok.1 hwritten
  cases hwritten
  refine ⟨⟨last, body, hrun⟩, texts, body, signature, content, directory, htexts, ?_, ?_, fun last' => ?_, hbody, hsignature,
    hcontent, hpath, hread⟩
  · -- there is a call
    simp only [itemTexts, bind_ok, pure_ok] at htexts
    obtain ⟨ins, -, calls, hcalls, rfl⟩ := htexts
    have hne : calls ≠ [] := ne_nil_of_mapM hcalls (by simpa using he.body_ne_nil)
    simp [hne]
  · rw [e.writtenTexts_eq_self, e.variables_eq_zero]
  · rw [elementTexts_eq he.body_ne_nil he.tablesFirst, htexts]
    rfl

section Listed

variable {schema : Outcome Value} {es : List Element} {n : Nat} {t t' : Session} {u : Unit} (hs : ListsAfter schema es n t.settings)
  (he : e ∈ es) (hbuilt : Built layers relations e)
include hs he hbuilt

theorem writeElements_writes {mapSources : Bool} (h : Container.writeElements mapSources t = .ok u t') :
    ∃ r r', WritesProcedure mapSources (schemaText schema) n e r r' := by
  obtain ⟨list, hl, hes⟩ := hs.listed
  simp only [Container.writeElements, Job.layers, Job.setting, run_parts] at h
  obtain ⟨_, hl', vs, hvs, _, _, hfold, -⟩ := h
  obtain rfl := ok_unique hl hl'
  have helements := Container.elements_of_records hes (List.forall_mem_map.2 fun _ _ => rfl)
  obtain rfl := ok_unique helements hvs
  obtain ⟨last, r, _, r', -, hstep⟩ := foldlM_run_mem (I := fun _ => True) (fun _ _ _ _ _ _ _ => trivial) hfold
    trivial (List.mem_map_of_mem he)
  exact ⟨r, r', writeElement_writes hbuilt hstep⟩

theorem generate_writes {base remoteMappingOnly : Bool} (h : Container.generate base true remoteMappingOnly t = .ok u t') :
    ∃ r r', WritesProcedure (!remoteMappingOnly) (schemaText schema) n e r r' := by
  rw [generate_eq_phases] at h
  have hphase : .other (Container.finish true remoteMappingOnly) ∈ containerPhases base true remoteMappingOnly := by
    simp [containerPhases]
  obtain ⟨q, _, q', hq, hfinish⟩ := forM_run_mem
    (fun p hp => keeps_phase (c := .container base true remoteMappingOnly) (unnoted_listsAfter schema es n)
      (baseless_listsAfter schema es n) hp) h hs hphase
  simp only [Phase.run, Container.finish, if_true, run_bind_ok] at hfinish
  obtain ⟨_, _, hwrite, -⟩ := hfinish
  exact writeElements_writes hq he hbuilt hwrite

end Listed

/-- The procedures that are written for some elements after a number of generations of graphs, by themselves or with a container. -/
structure ProceduresWritten (schema : String) (es : List Element) (n : Nat) (t : Session) : Prop where
  elements : ∀ mapSources t', Container.writeElements mapSources t = .ok () t' →
    ∀ e ∈ es, ∃ r r', WritesProcedure mapSources schema n e r r'
  container : ∀ base remoteMappingOnly t', Container.generate base true remoteMappingOnly t = .ok () t' →
    ∀ e ∈ es, ∃ r r', WritesProcedure (!remoteMappingOnly) schema n e r r'

/-- After a processed session has generated graphs and containers any number of times, the procedure of each element is written with
the statements of its items, and the last of them again for each variable. -/
theorem processTrace_procedures_written {raiseOnError logStatements own : Bool} {s s' : Session} {u : Unit}
    (h : processTrace raiseOnError logStatements own s = .ok u s')
    (hl : s.settings.entry Setting.layers = .ok (.object [])) {history : List Generation} {t : Session} {v : Unit}
    (hrun : history.forM Generation.run s' = .ok v t) :
    (s.trace.isTruthy = false ∧ s' = s) ∨ ∃ (layers : Value) (es : List Element), s'.settings.entry Setting.layers = .ok layers ∧
      layers.entry consumptionKey = .ok (.list (es.map Element.toValue)) ∧
      ProceduresWritten (schemaText (s'.settings.entry Setting.schema)) es (history.countP Generation.isGraphs) t := by
  refine (processTrace_processed storesAs_trivial h hl trivial).imp_right ?_
  rintro ⟨grouped, final, relations, es, hp⟩
  have ht := history_after hrun (listsAfter_of_processed hp)
  rw [Nat.zero_add] at ht
  exact ⟨final, es, hp.layers, hp.listed, fun _ _ hwrite e he => writeElements_writes ht he (hp.built e he) hwrite,
    fun _ _ _ hgen e he => generate_writes ht he (hp.built e he) hgen⟩

def returningSession : Session where
  settings := tracedSession.settings ++ [(Setting.proceduresPath, .text ".")]
  trace := tracedSession.trace

def endsTwice (count : Nat) (text : String) (texts : List String) : Bool :=
  texts.length == count && texts.drop (count - 2) == [text, text]

theorem returningSession_writes : ∃ s t layers statements table returned text p texts,
    processTrace true false true returningSession = .ok () s ∧ Container.writeElements false s = .ok () t ∧
      s.settings.entry Setting.layers = .ok layers ∧
      layers.at? [.key consumptionKey, .position 0, .key "sql"] = some statements ∧
      layers.at? (outputPlace 0 0) = some table ∧ layers.at? (outputPlace 0 1) = some returned ∧
      returned.has "sql_vars" = .ok false ∧ statementText table = .ok text ∧ Parts.of statements = .ok p ∧
      Container.elementTexts none p = .ok texts ∧ endsTwice 4 text texts = true := by
  have hrun : succeedsWith (fun r _ => (r.at? [.key consumptionKey, .position 0, .key "sql"]).any fun statements =>
        (r.at? (outputPlace 0 0)).any fun table => (r.at? (outputPlace 0 1)).any fun returned =>
        (returned.has "sql_vars").toOption.any (! ·) && (statementText table).toOption.any fun text =>
          (Parts.of statements).toOption.any fun p =>
            (Container.elementTexts none p).toOption.any (endsTwice 4 text))
      ((do
        processTrace true false true
        let layers ← Job.layers
        Container.writeElements false
        return layers : Job Value) returningSession) = true := by decide +kernel
  obtain ⟨layers, t, h, htest⟩ := exists_of_succeedsWith hrun
  simp only [Job.layers, Job.setting, run_parts, run_pure_ok] at h
  obtain ⟨_, s, hs, _, hl, _, _, hwrite, rfl, rfl⟩ := h
  simp only [Option.any_eq_true, Bool.and_eq_true] at htest
  obtain ⟨statements, hstatements, table, htable, returned, hreturned, ⟨b, hb, hfalse⟩, text, htext, p, hp, texts, htexts, htwice⟩ := htest
  obtain rfl : b = false := by simpa using hfalse
  exact ⟨_, _, _, statements, table, returned, text, p, texts, hs, hwrite, hl, hstatements, htable, hreturned,
    eq_ok_of_toOption hb, eq_ok_of_toOption htext, eq_ok_of_toOption hp, eq_ok_of_toOption htexts, htwice⟩

/-- In the sample a procedure is written for an element with a variable. -/
theorem processTrace_procedures_written_sample : ∃ s t es e r r',
    processTrace true false true returningSession = .ok () s ∧ Container.writeElements false s = .ok () t ∧ e ∈ es ∧
      ProceduresWritten (schemaText (s.settings.entry Setting.schema)) es 0 s ∧
      WritesProcedure false (schemaText (s.settings.entry Setting.schema)) 0 e r r' ∧ e.variables ≠ 0 := by
  obtain ⟨s, t, layers, _, _, item, _, _, _, hs, hwrite, hl, -, -, hitem, hlacks, -⟩ := returningSession_writes
  have hrun : ([] : List Generation).forM Generation.run s = .ok () s := rfl
  obtain ⟨hempty, -⟩ | ⟨layers', es, hl', hes, hwritten⟩ := processTrace_procedures_written hs rfl hrun
  · exact absurd hempty (by decide)
  obtain rfl := ok_unique hl hl'
  have hes' : layers.entry consumptionKey = .ok (.list (es.map (elementAfter "" 0))) := by
    rw [hes, funext (elementAfter_zero "")]
  rw [at?_outputPlace hes'] at hitem
  obtain ⟨e, he, hitem⟩ := Option.bind_eq_some_iff.1 hitem
  obtain ⟨o, ho, rfl⟩ := Option.map_eq_some_iff.1 hitem
  have he := List.mem_of_getElem? he
  obtain ⟨r, r', hr⟩ := hwritten.elements false t hwrite e he
  refine ⟨s, t, es, e, r, r', hs, hwrite, he, hwritten, hr, fun hzero => ?_⟩
  cases o with
  | table table =>
    have hhas := Value.has_of_entry (vars_outputAfter "" 0 table)
    cases hhas.symm.trans hlacks
  | var v => exact e.variables_eq_zero.1 hzero v (List.mem_of_getElem? ho)

/-- In the sample four statements are written for an input, a call, a table and a variable, the last two of them for the table. -/
theorem elementTexts_repeats_statement : ∃ s layers statements table returned text p input call,
    processTrace true false true returningSession = .ok () s ∧ s.settings.entry Setting.layers = .ok layers ∧
      layers.at? [.key consumptionKey, .position 0, .key "sql"] = some statements ∧
      layers.at? (outputPlace 0 0) = some table ∧ layers.at? (outputPlace 0 1) = some returned ∧
      returned.has "sql_vars" = .ok false ∧ statementText table = .ok text ∧ Parts.of statements = .ok p ∧
      Container.elementTexts none p = .ok [input, call, text, text] := by
  obtain ⟨s, _, layers, statements, table, returned, text, p, texts, hs, -, hl, hstatements, htable, hreturned, hlacks, htext,
    hp, htexts, htwice⟩ := returningSession_writes
  simp only [endsTwice, Bool.and_eq_true, beq_iff_eq] at htwice
  obtain ⟨hlength, hdrop⟩ := htwice
  obtain ⟨input, call, rfl⟩ : ∃ input call, texts = [input, call, text, text] := by
    match texts, hlength, hdrop with
    | [input, call, _, _], _, rfl => exact ⟨input, call, rfl⟩
  exact ⟨s, layers, statements, table, returned, text, p, input, call, hs, hl, hstatements, htable, hreturned, hlacks, htext, hp, htexts⟩

end TraceArtifacts
