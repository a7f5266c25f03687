import TraceArtifacts.Proofs.Merging
import TraceArtifacts.Proofs.RemoteEntities
import TraceArtifacts.Proofs.SignatureGrowth

/-!
# Proofs: what a remote container is made of

Base procedures, elements and entities are chosen for a remote container each in its own way: a base procedure by its name, an
element by its own name, which holds the names of all procedures that it calls, and an entity by its element and by the category of
its table.
-/

namespace TraceArtifacts

open TraceArtifacts.Graph

variable {y : ProcedureName} {q s t t' : Session} {st st' : Settings} {n name : String} {u : Unit} {first layers object path : Value}

/-! ## Files of base procedures -/

theorem procedureName_of_entries {metadata name : Value} (hmeta : object.entry "metadata" = .ok metadata)
    (hname : metadata.entry "procedure_name" = .ok name) : procedureName object = .ok name := by
  rw [procedureName, Value.has_of_entry hmeta, hmeta]
  exact entryOr_of_entry hname _

theorem baseProcedureFile_named {filters : List String} {mapSources : Bool} {algo function : Value} (hsql : object.has "sql" = .ok true)
    (hn : procedureName object = .ok (.text n)) {file : Option Container.ProcedureFile}
    (h : Container.baseProcedureFile filters mapSources algo function object t = .ok file t') :
    (passesText filters n = false ∧ ∀ mapSources r, Container.baseProcedureFile filters mapSources algo function object r = .ok none r) ∨
      (passesText filters n = true ∧ ∃ f, file = some f ∧ f.name = .text n) := by
  simp only [Container.baseProcedureFile, hsql, lift_ok_eq, pure_bind, if_not_true, run_parts] at h
  obtain ⟨metadata, hmeta, name, hname, b, hb, h⟩ := h
  obtain rfl := ok_unique (procedureName_of_entries hmeta hname) hn
  rw [passes_text] at hb
  cases hb
  cases hpass : passesText filters n with
  | false =>
    refine .inl ⟨rfl, fun mapSources r => ?_⟩
    simp only [Container.baseProcedureFile, hsql, hmeta, hname, passes_text, hpass, lift_ok_eq, pure_bind, Bool.not_true,
      Bool.false_eq_true, if_false, Bool.not_false, if_true]
    rfl
  | true =>
    refine .inr ⟨rfl, ?_⟩
    simp only [hpass, if_not_true, run_bind_ok, run_lift_ok, run_pure_ok] at h
    obtain ⟨_, _, -, _, _, -, _, _, -, _, _, -, _, _, -, _, _, -, rfl, -⟩ := h
    exact ⟨_, rfl, rfl⟩

theorem writeBaseProcedures_hasFile {now : Value} (hg : Grown now (fun _ => 0) now) {filters : List String} {mapSources : Bool}
    (ht : t.settings.entry Setting.layers = .ok now) (h : Container.writeBaseProcedures path filters mapSources t = .ok u t') {o : Value}
    (ho : procedureAt? now y = some o) (hn : procedureName o = .ok (.text n)) :
    (passesText filters n = true → HasFile path (n ++ ".hdbprocedure") t') ∧ (passesText filters n = false → ∀ mapSources r,
        Container.baseProcedureFile filters mapSources (.text y.1) (.text y.2) o r = .ok none r) := by
  rw [writeBaseProcedures_eq hg.alike.base' ht] at h
  have hmem : (y.1, y.2, o) ∈ proceduresOf now := (mem_proceduresOf hg.alike.base').2 ho
  have hsql : o.has "sql" = .ok true := hg.complete ho "sql" (by decide)
  refine ⟨fun hpass => ?_, fun hpass => ?_⟩
  · refine forM_run_brings (I := fun _ => True) (fun _ _ _ _ _ _ _ => trivial) (fun p _ =>
      Container.keeps_writeBaseProcedure (keptByFiles_hasFile path (n ++ ".hdbprocedure"))
        (fun _ _ _ => Container.keeps_appendVariables_onTree (fun tree cwd => ∃ directory content, path = .text directory ∧
          tree.read cwd (joinPaths directory (n ++ ".hdbprocedure")) = .ok content) ..) _ _ _ _ _ _)
      hmem (fun {r v r'} _ hstep => ?_) h trivial
    obtain ⟨file, _, hfile, hwrite⟩ := run_bind_ok.1 hstep
    rcases baseProcedureFile_named hsql hn hfile with ⟨hno, -⟩ | ⟨-, f, rfl, hname⟩
    · exact absurd (hno.symm.trans hpass) Bool.false_ne_true
    · simp only [hname] at hwrite
      obtain ⟨directory, content, hpath, -, hread⟩ := Container.writeProcedure_ok hwrite
      exact ⟨directory, content, hpath, hread⟩
  · obtain ⟨r, v, r', -, hstep⟩ := forM_run_mem (I := fun _ => True) (fun _ _ _ _ _ _ _ => trivial) h trivial hmem
    obtain ⟨file, _, hfile, -⟩ := run_bind_ok.1 hstep
    rcases baseProcedureFile_named hsql hn hfile with ⟨-, hnone⟩ | ⟨hyes, -⟩
    · exact hnone
    · exact absurd (hpass.symm.trans hyes) Bool.false_ne_true

/-! ## Procedures that are called -/

def Element.calledNames (e : Element) : List String :=
  e.body.filterMap fun
    | .call c => some c.name.textOrEmpty
    | .input _ => none

theorem calledNames_merged (x : ProcedureName) (n m : String) (groups : Value) (p c : Contribution) :
    (mergedOf x n m groups p c).calledNames = [p.call.name.textOrEmpty, c.call.name.textOrEmpty] := by
  have hinputs : ∀ is : List InputItem, (is.map BodyItem.input).filterMap (fun
      | .call c => some c.name.textOrEmpty
      | .input _ => none) = ([] : List String) := by
    intro is
    simp [List.filterMap_map]
  simp [Element.calledNames, mergedOf, List.filterMap_append, hinputs]

def CarriedBy (layers : Value) (y : ProcedureName) (name : String) : Prop :=
  ∃ l o, Alike [mergedKey] layers l ∧ procedureAt? l y = some o ∧ procedureName o = .ok (.text name)

theorem ContributedAs.called {linkType : Value} {c : Contribution} (h : ContributedAs layers linkType y c) (hn : c.procedure = .text n) :
    c.call.name.textOrEmpty = n ∧ CarriedBy layers y n := by
  obtain ⟨l, o, hl, ho, hc⟩ := h
  obtain ⟨names, -, hcall⟩ := hc.call
  refine ⟨by rw [hcall, hn]; rfl, l, o, hl, ho, ?_⟩
  rw [hc.procedure, hn]

theorem Built.calls_named {relations : List Relation} {e : Element} (h : Built layers relations e) :
    (∀ name ∈ e.calledNames, ∃ y, CarriedBy layers y name) ∧ ((e.single = true ∧ ∃ n, e.calledNames = [n] ∧ e.name = "cons_" ++ n) ∨
        (e.single = false ∧ ∃ n m, e.calledNames = [n, m] ∧ e.name = "cons_" ++ n ++ "_" ++ m)) := by
  cases h with
  | @alone x n groups c hc hn =>
    obtain ⟨hname, hcarried⟩ := hc.called hn
    have hcalls : (elementOf x n groups c).calledNames = [n] := congrArg (fun k => [k]) hname
    refine ⟨fun name hmem => ?_, .inl ⟨rfl, n, hcalls, rfl⟩⟩
    rw [hcalls] at hmem
    obtain rfl := List.mem_singleton.1 hmem
    exact ⟨x, hcarried⟩
  | @merged x y n m groups p c r hp hc hn hm hpart hr hfrom hto =>
    obtain ⟨hname, hcarried⟩ := hp.called hn
    obtain ⟨hname', hcarried'⟩ := hc.called hm
    have hcalls : (mergedOf x n m groups p c).calledNames = [n, m] := by
      rw [calledNames_merged, hname, hname']
    refine ⟨fun name hmem => ?_, .inr ⟨rfl, n, m, hcalls, rfl⟩⟩
    rw [hcalls] at hmem
    rcases List.mem_cons.1 hmem with rfl | hmem
    · exact ⟨x, hcarried⟩
    · obtain rfl := List.mem_singleton.1 hmem
      exact ⟨y, hcarried'⟩

theorem Built.passes_iff {relations : List Relation} {e : Element} (h : Built layers relations e) (modelOnly : Bool) :
    passesText (remoteFilters modelOnly) e.name = e.calledNames.any (passesText (remoteFilters modelOnly)) := by
  rcases h.calls_named.2 with ⟨-, n, hcalls, hname⟩ | ⟨-, n, m, hcalls, hname⟩
  · rw [hcalls, hname, passesText_alone, List.any_cons, List.any_nil, Bool.or_false]
  · rw [hcalls, hname, passesText_merged, List.any_cons, List.any_cons, List.any_nil, Bool.or_false]

/-! ## Base layers in later sessions -/

def BaseKept (first : Value) (st : Settings) : Prop :=
  ∃ now, st.entry Setting.layers = .ok now ∧ Alike ["output_tables"] first now ∧ Grown now (fun _ => 0) now

theorem Grown.restart {now : Value} {count : ProcedureName → Nat} (h : Grown layers count now) : Grown now (fun _ => 0) now := by
  refine ⟨.refl _ h.alike.base' h.alike.hasRecords, fun {y o} ho => ?_, fun ho ho' => ?_⟩
  · obtain ⟨first, hfirst, hs⟩ := h.alike.procedure' ho
    exact h.isComplete hfirst ho hs
  · obtain rfl := Option.mem_unique ho ho'
    exact .inl ⟨rfl, rfl⟩

theorem unnoted_baseKept (first : Value) : Container.Unnoted (BaseKept first) := by
  rintro st k v hk ⟨now, hl, halike, hg⟩
  exact ⟨now, Container.unnoted_entry (by decide) _ hk hl, halike, hg⟩

theorem BaseKept.phases {phases : List Phase} (hphases : ∀ p ∈ phases, ∃ c : ContainerCall, p ∈ c.phases)
    (h : phases.forM Phase.run s = .ok u t) (hs : BaseKept first s.settings) : BaseKept first t.settings := by
  obtain ⟨now, hl, halike, hg⟩ := hs
  obtain ⟨now', hl', hg'⟩ := phases_grow hg hphases hl h
  exact ⟨now', hl', halike.trans hg'.alike, hg'.restart⟩

theorem BaseKept.call {c : ContainerCall} (h : c.run s = .ok u t) (hs : BaseKept first s.settings) : BaseKept first t.settings := by
  rw [c.run_eq_phases] at h
  exact BaseKept.phases (fun p hp => ⟨c, hp⟩) h hs

theorem BaseKept.elements {v : Value} (hl : st.entry Setting.layers = .ok layers) (hs : BaseKept first st) :
    BaseKept first (st.set Setting.layers (layers.putAt [.key consumptionKey] v)) := by
  obtain ⟨now, hnow, halike, hg⟩ := hs
  obtain rfl := ok_unique hnow hl
  have hsame : ∀ k, k ≠ consumptionKey → (now.putAt [.key consumptionKey] v).at? [.key k] = now.at? [.key k] := by
    intro k hk
    have hapart : Place.Apart [.key consumptionKey] [.key k] := .inl (by simpa using Ne.symm hk)
    exact Value.at?_modifyAt_of_apart _ hapart now
  have hbase := hsame baseKey (by decide)
  have hput : Grown now (fun _ => 0) (now.putAt [.key consumptionKey] v) := by
    refine ⟨.of_at _ hg.alike.base hg.alike.hasRecords hbase (hsame relationsKey (by decide)), hg.complete, fun ho ho' => ?_⟩
    rw [procedureAt?_congr hbase] at ho'
    obtain rfl := Option.mem_unique ho ho'
    exact .inl ⟨rfl, rfl⟩
  exact ⟨_, Settings.entry_set_self .., halike.trans hput.alike, hput.restart⟩

theorem BaseKept.prepareGraphs {container : Bool} (h : Graph.prepareGraphs container s = .ok u t) (hs : BaseKept first s.settings) :
    BaseKept first t.settings := by
  obtain ⟨_, s1, hnote, h⟩ := run_bind_ok.1 h
  have hs1 := keeps_noteDirectory (unnoted_baseKept first) _ hnote hs
  cases container with
  | false => exact keeps_renewDirectory (P := BaseKept first) _ h hs1
  | true =>
    obtain ⟨_, s2, hgen, h⟩ := run_bind_ok.1 h
    have hs2 : BaseKept first s2.settings := BaseKept.call (c := .container true false true) hgen hs1
    exact keeps_renewDirectory (P := BaseKept first) _ h hs2

section History

variable {schema : Outcome Value} {es : List Element}

theorem Graph.WritesGraphs.baseKept {n : Nat} {container : Bool} {options : GraphOptions} {graphs : GraphDrafts} {s' : Session}
    (h : WritesGraphs container options path graphs s s') (hes : ListsAfter schema es n s.settings) (hs : BaseKept first s.settings) :
    BaseKept first s'.settings := by
  obtain ⟨r, t, hprepare, -, hdraft, hwrite⟩ := h
  obtain ⟨-, layers, hl, -, hset⟩ := drafting_lists hdraft (hes.prepareGraphs hprepare)
  have ht : BaseKept first t.settings := by
    rw [hset]
    exact (BaseKept.prepareGraphs hprepare hs).elements hl
  exact keeps_writeGraphs (P := BaseKept first) _ _ hwrite ht

theorem history_baseKept {history : List Generation} {n : Nat} (h : history.forM Generation.run s = .ok u t)
    (hes : ListsAfter schema es n s.settings) (hs : BaseKept first s.settings) : BaseKept first t.settings :=
  (history_run (fun hw => hw.baseKept) BaseKept.call h hes hs).2

end History

/-! ## Remote containers -/

/-- What a remote container holds for an element: its procedure, if its name passes, and of the procedures that it calls just those
whose own names pass. -/
structure ElementServed (modelOnly : Bool) (path now : Value) (e : Element) (t : Session) : Prop where
  chosen : passesText (remoteFilters modelOnly) e.name = e.calledNames.any (passesText (remoteFilters modelOnly))
  own : passesText (remoteFilters modelOnly) e.name = true → HasFile path (e.name ++ ".hdbprocedure") t ∧ ∀ v, .var v ∉ e.outputs
  called : ∀ name ∈ e.calledNames, ∃ y o, procedureAt? now y = some o ∧ procedureName o = .ok (.text name) ∧
    (passesText (remoteFilters modelOnly) name = true → HasFile path (name ++ ".hdbprocedure") t) ∧
    (passesText (remoteFilters modelOnly) name = false → ∀ mapSources r,
      Container.baseProcedureFile (remoteFilters modelOnly) mapSources (.text y.1) (.text y.2) o r = .ok none r)
  complete : passesText (remoteFilters modelOnly) e.name = true → modelOnly = false ∨ e.single = true →
    ∀ name ∈ e.calledNames, HasFile path (name ++ ".hdbprocedure") t

/-- The file of entities declares the tables of some elements: a name as often as an element in the container fills a table of that
name and as often as such a table is loaded. -/
structure EntitiesWritten (modelOnly : Bool) (schema : String) (n : Nat) (es : List Element) (st : Settings) (t : Session) :
    Prop where
  file : ∃ entities directory context content, List.Forall₂ (DeclaredBy schema n) (es.flatMap (elementDeclarations modelOnly st)) entities ∧
    st.entry (Setting.remote Setting.entitiesPath) = .ok (.text directory) ∧
    st.entry Setting.entityContext = .ok (.text context) ∧
    substituteFields [("<<CONTEXT_NAME>>", .text context), ("<<CONTEXT_CONTENT>>", .text (Container.entitiesText entities))]
      Container.FileText.entities = .ok content ∧
    t.tree.read t.cwd (joinPaths directory (context ++ ".hdbcds")) = .ok content
  shown : ∀ d entity, DeclaredBy schema n d entity → d.table.hasColumns = false ∧ entity = .null ∨
    d.table.hasColumns = true ∧ ∃ name elements extension, d.table.objectName = .text name ∧ d.table.entityType = some elements ∧
      entity = .text ("  entity " ++ name ++ " \x7b\n" ++ elements ++ extension ++ "  \x7d;\n")
  counted : ∀ name, timesDeclared name (es.flatMap (elementDeclarations modelOnly st)) =
    (tablesOf (es.filter fun e => passesText (remoteFilters modelOnly) e.name)).countP (·.isNamed name) +
      (tablesOf es).countP (fun t => t.isNamed name && isLoaded modelOnly st t)
  twice : modelOnly = false → ∀ name, timesDeclared name (es.flatMap (elementDeclarations modelOnly st)) =
    2 * (tablesOf es).countP (·.isNamed name)

structure RemoteWritten (modelOnly : Bool) (schema : String) (n : Nat) (es : List Element) (q t : Session) : Prop where
  run : Container.writeRemoteLayers modelOnly q = .ok () t
  procedures : ∃ path now, q.settings.entry (Setting.remote Setting.proceduresPath) = .ok path ∧
    q.settings.entry Setting.layers = .ok now ∧ ∀ e ∈ es, ElementServed modelOnly path now e t
  entities : EntitiesWritten modelOnly schema n es q.settings t

theorem CarriedBy.now {final now : Value} (h : CarriedBy layers y name)
    (hfinal : ∀ {x o}, procedureAt? layers x = some o → ∃ o', procedureAt? final x = some o' ∧ o.SameBut [mergedKey] o')
    (hnow : Alike ["output_tables"] final now) : ∃ o, procedureAt? now y = some o ∧ procedureName o = .ok (.text name) := by
  obtain ⟨l, o, hl, ho, hname⟩ := h
  obtain ⟨o1, ho1, hs1⟩ := hl.procedure' ho
  obtain ⟨o2, ho2, hs2⟩ := hfinal ho1
  obtain ⟨o3, ho3, hs3⟩ := hnow.procedure ho2
  refine ⟨o3, ho3, ?_⟩
  rw [hs3.procedureName (by decide), hs2.procedureName (by decide), ← hs1.procedureName (by decide), hname]

theorem isLoaded_congr (h : st'.entry Setting.categoryWords = st.entry Setting.categoryWords) (modelOnly : Bool) (t : OutputTable) :
    isLoaded modelOnly st' t = isLoaded modelOnly st t := by
  rw [isLoaded, isLoaded, Settings.isKind, Settings.isKind, Settings.isCategory, Settings.isCategory, h]

theorem elementDeclarations_congr (h : st'.entry Setting.categoryWords = st.entry Setting.categoryWords) (modelOnly : Bool) (e : Element) :
    elementDeclarations modelOnly st' e = elementDeclarations modelOnly st e := by
  rw [elementDeclarations, elementDeclarations]
  refine List.flatMap_congr fun o _ => ?_
  cases o with
  | var v => rfl
  | table t => rw [outputDeclarations, outputDeclarations, isLoaded_congr h]

theorem HasFile.afterElements {modelOnly : Bool} {file : String} {vs entities entities' : List Value} {r : Session}
    {directory context content : Value} (hfold : vs.foldlM (Container.takeElement modelOnly) entities q = .ok entities' r)
    (hwrite : Container.writeEntities directory context content r = .ok u t) (h : HasFile path file q) : HasFile path file t :=
  have hJ := keptByFiles_hasFile path file
  Container.keeps_writeEntities hJ _ _ _ hwrite (Keeps.foldlM (fun _ _ => Container.keeps_takeElement hJ _ _ _) _ _ hfold h)

section Written

variable {P : BaseParts → Prop} {s' : Session} {grouped final : Value} {relations : List Relation} {es : List Element}
  (hp : Processed P s s' grouped final relations es) {schema : Outcome Value} {n : Nat} {modelOnly : Bool}
include hp

theorem writeRemoteLayers_written (hs : ListsAfter schema es n q.settings) (hb : BaseKept final q.settings)
    (h : Container.writeRemoteLayers modelOnly q = .ok () t) : RemoteWritten modelOnly (schemaText schema) n es q t := by
  have hrun := h
  obtain ⟨now, hnow, halike, hgrown⟩ := hb
  simp only [Container.writeRemoteLayers, Job.layers, Job.setting, run_parts] at h
  obtain ⟨path, hpath, _, q1, hbase, l, hl, vs, hvs, entities, q2, hfold, directory, hdirectory, context, hcontext, hwrite⟩ := h
  -- writing base procedures changes nothing else in the settings, and taking elements changes nothing at all
  have hq1 : ListsAfter schema es n q1.settings := Container.keeps_writeBaseProcedures (baseless_listsAfter schema es n) _ _ _ hbase hs
  have hentry : ∀ k, k ≠ Setting.layers → q1.settings.entry k = q.settings.entry k := fun k hk =>
    Container.keeps_writeBaseProcedures (Container.baseless_entry hk (q.settings.entry k)) _ _ _ hbase rfl
  have hq2 : q2.settings = q1.settings := Keeps.foldlM (fun _ _ =>
    Container.keeps_takeElement (keeps_writeFile (P := (· = q1.settings))) _ _ _) _ _ hfold rfl
  obtain ⟨list, hlist, hes⟩ := hq1.listed
  obtain rfl := ok_unique hlist hl
  have helements := Container.elements_of_records hes (List.forall_mem_map.2 fun _ _ => rfl)
  obtain rfl := ok_unique helements hvs
  refine ⟨hrun, ⟨path, now, hpath, hnow, fun e he => ?_⟩, ?_⟩
  · have hbuilt := hp.built e he
    have hcalled : ∀ name ∈ e.calledNames, ∃ y o, procedureAt? now y = some o ∧ procedureName o = .ok (.text name) ∧
        (passesText (remoteFilters modelOnly) name = true → HasFile path (name ++ ".hdbprocedure") t) ∧
        (passesText (remoteFilters modelOnly) name = false → ∀ mapSources r, Container.baseProcedureFile
          (remoteFilters modelOnly) mapSources (.text y.1) (.text y.2) o r = .ok none r) := by
      intro name hname
      obtain ⟨y, hcarried⟩ := hbuilt.calls_named.1 name hname
      obtain ⟨o, ho, hn⟩ := hcarried.now hp.procedure halike
      obtain ⟨hyes, hno⟩ := writeBaseProcedures_hasFile hgrown hnow hbase ho hn
      exact ⟨y, o, ho, hn, fun hpass => (hyes hpass).afterElements hfold hwrite, hno⟩
    refine ⟨hbuilt.passes_iff modelOnly, fun hpass => ?_, hcalled, fun hpass hall name hname => ?_⟩
    · obtain ⟨c, r, c', r', -, hstep⟩ := foldlM_run_mem (I := fun _ => True) (fun _ _ _ _ _ _ _ => trivial) hfold trivial
        (List.mem_map_of_mem he)
      refine ⟨?_, ((takeElement_declares hstep).2 hpass).1⟩
      have hfile : HasFile path (e.name ++ ".hdbprocedure") q2 := by
        refine foldlM_run_brings (I := WithSettings (· = q1.settings)) (fun _ _ => Container.keeps_takeElement keeps_writeFile _ _ _)
          (fun _ _ => Container.keeps_takeElement (keptByFiles_hasFile _ _) _ _ _) (List.mem_map_of_mem he)
          (fun {b r b' r'} hr hstep => ?_) hfold rfl
        obtain ⟨-, path', hpath', hfile⟩ := (takeElement_declares hstep).2 hpass
        have hr : r.settings = q1.settings := hr
        rw [hr, hentry _ (by decide), hpath] at hpath'
        cases hpath'
        exact hfile
      exact Container.keeps_writeEntities (keptByFiles_hasFile _ _) _ _ _ hwrite hfile
    · obtain ⟨y, o, -, -, hyes, -⟩ := hcalled name hname
      refine hyes ?_
      rcases hall with rfl | hsingle
      · rfl
      · rcases hbuilt.calls_named.2 with ⟨-, m, hcalls, htitle⟩ | ⟨hmerged, -⟩
        · rw [hcalls] at hname
          obtain rfl := List.mem_singleton.1 hname
          rw [htitle, passesText_alone] at hpass
          exact hpass
        · rw [hmerged] at hsingle
          cases hsingle
  · obtain ⟨new, heq, hnew⟩ := takeElements_declare hfold
    obtain rfl : new = entities := heq.symm
    rw [List.flatMap_congr fun e _ => elementDeclarations_congr (hentry _ (by decide)) modelOnly e] at hnew
    obtain ⟨dir, name, text, rfl, rfl, htext, hread⟩ := Container.writeEntities_ok hwrite
    rw [hq2, hentry _ (by decide)] at hdirectory hcontext
    refine ⟨⟨new, dir, name, text, hnew, hdirectory, hcontext, htext, hread⟩, fun _ _ hd => hd.shown,
      fun name => timesDeclared_elements .., ?_⟩
    rintro rfl name
    exact timesDeclared_twice ..

theorem generateRemote_written {remoteMappingOnly : Bool} (hs : ListsAfter schema es n q.settings) (hb : BaseKept final q.settings)
    (h : Container.generateRemote modelOnly remoteMappingOnly q = .ok () t) :
    ∃ r, RemoteWritten modelOnly (schemaText schema) n es r t := by
  let before : List Phase := .other Container.noteRemotePaths :: (containerPhases true true remoteMappingOnly ++
    [.other Container.prepareRemote])
  have hsub : ∀ p ∈ before, p ∈ (ContainerCall.withRemote modelOnly remoteMappingOnly).phases := by
    intro p hp
    simp only [before, ContainerCall.phases, List.mem_cons, List.mem_append, List.not_mem_nil, or_false] at hp ⊢
    rcases hp with hp | hp | hp
    · exact .inl hp
    · exact .inr (.inl hp)
    · exact .inr (.inr (.inl hp))
  have hsplit : Container.generateRemote modelOnly remoteMappingOnly = (do
      before.forM Phase.run
      Container.writeRemoteLayers modelOnly) := by
    have hgen := generate_eq_phases true true remoteMappingOnly
    simp only [Container.generateRemote, hgen, before]
    simp [Phase.run, Container.prepareRemote]
  rw [hsplit] at h
  obtain ⟨_, r, hbefore, hwrite⟩ := run_bind_ok.1 h
  have hphases : ∀ p ∈ before, ∃ c : ContainerCall, p ∈ c.phases := fun p hp => ⟨_, hsub p hp⟩
  have hr : ListsAfter schema es n r.settings :=
    keeps_phases (unnoted_listsAfter schema es n) (baseless_listsAfter schema es n) hphases hbefore hs
  exact ⟨r, writeRemoteLayers_written hp hr (BaseKept.phases hphases hbefore hb) hwrite⟩

end Written

structure RemotesWritten (schema : String) (n : Nat) (es : List Element) (t : Session) : Prop where
  layers : ∀ modelOnly t', Container.writeRemoteLayers modelOnly t = .ok () t' → RemoteWritten modelOnly schema n es t t'
  container : ∀ modelOnly remoteMappingOnly t', Container.generateRemote modelOnly remoteMappingOnly t = .ok () t' →
    ∃ r, RemoteWritten modelOnly schema n es r t'

/-- After a processed session has generated graphs and containers any number of times, a remote container holds the procedures whose
names pass, and it declares a table as often as it is filled and loaded there. -/
theorem processTrace_remotes_written {raiseOnError logStatements own : Bool} {s s' : Session} {u : Unit}
    (h : processTrace raiseOnError logStatements own s = .ok u s')
    (hl : s.settings.entry Setting.layers = .ok (.object [])) {history : List Generation} {t : Session} {v : Unit}
    (hrun : history.forM Generation.run s' = .ok v t) :
    (s.trace.isTruthy = false ∧ s' = s) ∨ ∃ (layers : Value) (es : List Element), s'.settings.entry Setting.layers = .ok layers ∧
      layers.entry consumptionKey = .ok (.list (es.map Element.toValue)) ∧
      RemotesWritten (schemaText (s'.settings.entry Setting.schema)) (history.countP Generation.isGraphs) es t := by
  obtain hempty | ⟨layers, hlayers, hgrown⟩ := processTrace_complete h hl
  · exact .inl hempty
  refine (processTrace_processed storesAs_trivial h hl trivial).imp_right ?_
  rintro ⟨grouped, final, relations, es, hp⟩
  obtain rfl := ok_unique hlayers hp.layers
  have hfirst : BaseKept layers s'.settings := ⟨layers, hlayers, hgrown.alike, hgrown⟩
  have hes := listsAfter_of_processed hp
  have ht := history_after hrun hes
  have hb := history_baseKept hrun hes hfirst
  rw [Nat.zero_add] at ht
  exact ⟨layers, es, hlayers, hp.listed, fun _ _ hwrite => writeRemoteLayers_written hp ht hb hwrite,
    fun _ _ _ hgen => generateRemote_written hp ht hb hgen⟩

theorem named_of_listed {es : List Element} (hes : layers.entry consumptionKey = .ok (.list (es.map Element.toValue))) {i j : Nat}
    {columns : Value} (hobject : layers.at? (outputPlace i j ++ [.key "object_name"]) = some (.text name))
    (hcolumns : layers.at? (outputPlace i j ++ [.key "cds_type"]) = some columns) (htrue : columns.isTruthy = true) :
    ∃ table ∈ tablesOf es, table.isNamed name = true := by
  rw [← funext (elementAfter_zero "")] at hes
  rw [Value.at?_append, at?_outputPlace hes] at hobject hcolumns
  obtain ⟨item, hitem, hobject⟩ := Option.bind_eq_some_iff.1 hobject
  obtain ⟨e, he, hitem'⟩ := Option.bind_eq_some_iff.1 hitem
  obtain ⟨o, ho, rfl⟩ := Option.map_eq_some_iff.1 hitem'
  rw [hitem, Option.bind_some] at hcolumns
  cases o with
  | var v => cases hobject
  | table t =>
    have hobject' := Value.entry_eq_ok_iff.2 hobject
    have hcolumns' := Value.entry_eq_ok_iff.2 hcolumns
    rw [(outputAfter_sameBut "" 0 t).entry (by decide)] at hobject' hcolumns'
    have hname : t.objectName = .text name := Except.ok.inj hobject'
    have htype : Value.ofText? t.entityType = columns := Except.ok.inj hcolumns'
    refine ⟨t, List.mem_flatMap.2 ⟨e, List.mem_of_getElem? he, ?_⟩, ?_⟩
    · exact List.mem_filterMap.2 ⟨_, List.mem_of_getElem? ho, rfl⟩
    · have hcols : t.hasColumns = true := by
        rw [← htype] at htrue
        cases htype : t.entityType with
        | none =>
          rw [htype] at htrue
          cases htrue
        | some elements =>
          rw [htype] at htrue
          rw [OutputTable.hasColumns, htype]
          exact htrue
      rw [OutputTable.isNamed, hcols, hname]
      exact beq_self_eq_true name

/-- A session with a call that writes a table of two columns, nothing processed yet, and directories for a remote container. -/
def loadingSession : Session where
  settings := Settings.builtin ++ [(Setting.mergeStrategy, .int 1), (Setting.groupStrategy, .int 1),
    (Setting.layers, .object []), (Setting.entityContext, .text "c"), (Setting.schema, .text "S"),
    (Setting.sourceMapping, .object [("S.D", .text "S.E")]), (Setting.remoteSource, .text "r"),
    (Setting.virtualTablePath, .text "."), (Setting.remote Setting.proceduresPath, .text "."),
    (Setting.remote Setting.entitiesPath, .text ".")]
  trace := .object [("RandomForestClassifier", .object
    [("F", .object [("sql", .list [.text "DO"]), ("function", .list []), ("input_tables", .list []),
      ("output_tables", .list [.object [("name", .text "#M"), ("select", .text "SELECT #M"),
        ("table_type", .text "table (\"A\" INTEGER,\"B\" INTEGER)")]]), ("output_vars", .list [])])])]

theorem loadingSession_writes : ∃ s t layers name columns, processTrace true false true loadingSession = .ok () s ∧
    Container.writeRemoteLayers false s = .ok () t ∧ s.settings.entry Setting.layers = .ok layers ∧
      layers.at? (outputPlace 0 0 ++ [.key "object_name"]) = some (.text name) ∧
      layers.at? (outputPlace 0 0 ++ [.key "cds_type"]) = some columns ∧ columns.isTruthy = true := by
  have hrun : succeedsWith (fun layers _ => (layers.at? (outputPlace 0 0 ++ [.key "object_name"])).any (·.text?.isSome) &&
      (layers.at? (outputPlace 0 0 ++ [.key "cds_type"])).any Value.isTruthy)
      ((do
        processTrace true false true
        let layers ← Job.layers
        Container.writeRemoteLayers false
        return layers : Job Value) loadingSession) = true := by decide +kernel
  obtain ⟨layers, t, h, htest⟩ := exists_of_succeedsWith hrun
  simp only [Job.layers, Job.setting, run_parts, run_pure_ok] at h
  obtain ⟨_, s, hs, _, hl, _, _, hwrite, rfl, rfl⟩ := h
  simp only [Bool.and_eq_true, Option.any_eq_true] at htest
  obtain ⟨⟨object, hobject, htext⟩, columns, hcolumns, htrue⟩ := htest
  cases object with
  | text name => exact ⟨_, _, _, name, columns, hs, hwrite, hl, hobject, hcolumns, htrue⟩
  | _ => cases htext

/-- In the sample a remote container is written for an element that fills a table. -/
theorem processTrace_remotes_written_sample : ∃ s t es, processTrace true false true loadingSession = .ok () s ∧
    Container.writeRemoteLayers false s = .ok () t ∧ RemotesWritten (schemaText (s.settings.entry Setting.schema)) 0 es s ∧
      RemoteWritten false (schemaText (s.settings.entry Setting.schema)) 0 es s t ∧ tablesOf es ≠ [] := by
  obtain ⟨s, t, layers, name, columns, hs, hwrite, hl, hobject, hcolumns, htrue⟩ := loadingSession_writes
  have hrun : ([] : List Generation).forM Generation.run s = .ok () s := rfl
  obtain ⟨hempty, -⟩ | ⟨layers', es, hl', hes, hwritten⟩ := processTrace_remotes_written hs rfl hrun
  · exact absurd hempty (by decide)
  obtain rfl := ok_unique hl hl'
  obtain ⟨table, htable, -⟩ := named_of_listed hes hobject hcolumns htrue
  exact ⟨s, t, es, hs, hwrite, hwritten, hwritten.layers false t hwrite, List.ne_nil_of_mem htable⟩

/-- In the sample a table that an element in the container fills is declared more than once. -/
theorem writeRemoteLayers_declares_again : ∃ s t layers es name table,
    processTrace true false true loadingSession = .ok () s ∧ Container.writeRemoteLayers false s = .ok () t ∧
      s.settings.entry Setting.layers = .ok layers ∧
      layers.entry consumptionKey = .ok (.list (es.map Element.toValue)) ∧ table ∈ tablesOf es ∧
      table.isNamed name = true ∧ (∀ e ∈ es, passesText (remoteFilters false) e.name = true) ∧
      2 ≤ timesDeclared name (es.flatMap (elementDeclarations false s.settings)) := by
  obtain ⟨s, t, layers, name, columns, hs, hwrite, hl, hobject, hcolumns, htrue⟩ := loadingSession_writes
  obtain ⟨hempty, -⟩ | ⟨grouped, final, relations, es, hp⟩ := processTrace_processed storesAs_trivial hs rfl trivial
  · exact absurd hempty (by decide)
  obtain rfl := ok_unique hl hp.layers
  obtain ⟨table, htable, hnamed⟩ := named_of_listed hp.listed hobject hcolumns htrue
  refine ⟨s, t, layers, es, name, table, hs, hwrite, hl, hp.listed, htable, hnamed, fun _ _ => rfl, ?_⟩
  have hpos : 0 < (tablesOf es).countP (·.isNamed name) := List.countP_pos_iff.2 ⟨table, htable, hnamed⟩
  rw [timesDeclared_twice]
  omega

end TraceArtifacts
