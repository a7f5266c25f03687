import TraceArtifacts.Proofs.Generations

/-!
# Proofs: entities of a remote container

What goes into a remote container is told by words in names.
-/

namespace TraceArtifacts

open TraceArtifacts.Graph

variable {r r' : Container.RemoteOutputs} {t t' : Session} {name : Value}

/-! ## Words in names -/

def passesText (filters : List String) (name : String) : Bool :=
  filters.isEmpty || filters.any fun w => containsText name w

theorem passes_text (filters : List String) (name : String) : Container.passes filters (.text name) = .ok (passesText filters name) := by
  have hany : ∀ ws : List String, anyWordIn (ws.map .text) (.text name) = .ok (ws.any fun w => containsText name w) := by
    intro ws
    induction ws with
    | nil => rfl
    | cons w ws ih =>
      rw [List.map_cons, anyWordIn, ih, List.any_cons, containsText]
      simp only [Value.isIn, bind, Except.bind]
      cases Text.occurs w.toList name.toList <;> rfl
  cases filters with
  | nil => rfl
  | cons w ws => exact hany (w :: ws)

def remoteFilters (modelOnly : Bool) : List String := if modelOnly then Container.modelFilters else []

theorem containsText_append {w : String} (hw : w.toList ≠ []) (hplain : '_' ∉ w.toList) (a b : String) :
    containsText (a ++ "_" ++ b) w = (containsText a w || containsText b w) := by
  have hlist : (a ++ "_" ++ b).toList = a.toList ++ '_' :: b.toList := by simp
  rw [containsText, hlist, Text.occurs_append_cons hw hplain]
  rfl

theorem passesText_append (modelOnly : Bool) (a b : String) : passesText (remoteFilters modelOnly) (a ++ "_" ++ b) =
      (passesText (remoteFilters modelOnly) a || passesText (remoteFilters modelOnly) b) := by
  cases modelOnly with
  | false => rfl
  | true =>
    have hpredict := containsText_append (w := "predict") (by decide) (by decide) a b
    have hpartition := containsText_append (w := "partition") (by decide) (by decide) a b
    simp only [passesText, remoteFilters, Container.modelFilters, if_true, List.isEmpty_cons, List.any_cons, List.any_nil,
      hpredict, hpartition]
    cases containsText a "predict" <;> cases containsText b "predict" <;> cases containsText a "partition" <;> rfl

theorem passesText_alone (modelOnly : Bool) (n : String) :
    passesText (remoteFilters modelOnly) ("cons_" ++ n) = passesText (remoteFilters modelOnly) n := by
  have hsplit := passesText_append modelOnly "cons" n
  have hcons : "cons" ++ "_" ++ n = "cons_" ++ n := rfl
  have hword : passesText (remoteFilters modelOnly) "cons" = !modelOnly := by cases modelOnly <;> decide
  rw [hcons, hword] at hsplit
  rw [hsplit]
  cases modelOnly with
  | false => rfl
  | true => rfl

theorem passesText_merged (modelOnly : Bool) (n m : String) : passesText (remoteFilters modelOnly) ("cons_" ++ n ++ "_" ++ m) =
      (passesText (remoteFilters modelOnly) n || passesText (remoteFilters modelOnly) m) := by
  rw [passesText_append, passesText_alone]

/-! ## Entities -/

/-- A table that is declared by an entity, with the columns that loading fills or without them. -/
structure Declaration where
  table : OutputTable
  extended : Bool

def isLoaded (modelOnly : Bool) (st : Settings) (t : OutputTable) : Bool :=
  !modelOnly || (st.isKind t.category .model).toOption == some true

def outputDeclarations (modelOnly called : Bool) (st : Settings) : OutputItem → List Declaration
  | .table t => (if called then [⟨t, false⟩] else []) ++ (if isLoaded modelOnly st t then [⟨t, true⟩] else [])
  | .var _ => []

def elementDeclarations (modelOnly : Bool) (st : Settings) (e : Element) : List Declaration :=
  e.outputs.flatMap (outputDeclarations modelOnly (passesText (remoteFilters modelOnly) e.name) st)

def DeclaredBy (schema : String) (n : Nat) (d : Declaration) (entity : Value) : Prop :=
  Container.remoteEntity (outputAfter schema n (.table d.table)) d.extended = .ok entity

section Taking

variable {modelOnly called : Bool} {schema : String} {n : Nat}

def loadOutput (modelOnly : Bool) (elementName : Value) (r : Container.RemoteOutputs) (item : Value) :
    Job Container.RemoteOutputs := do
  let read ← if modelOnly then do (← get).settings.isKind (← item.entry "cat") .model
    else pure true
  if !read then return r
  let entity ← Container.remoteEntity item true
  Container.writeLoad elementName item
  return { r with entities := r.entities ++ [entity] }

theorem takeOutput_eq (elementName : Value) (r : Container.RemoteOutputs) (item : Value) :
    Container.takeOutput modelOnly called elementName r item = (if called then do
      let text ← synonymStatementText item
      let entity ← Container.remoteEntity item false
      loadOutput modelOnly elementName { texts := r.texts ++ [text], entities := r.entities ++ [entity] } item
    else loadOutput modelOnly elementName r item) := by
  cases called <;> rfl

theorem loadOutput_ok {item : Value} (h : loadOutput modelOnly name r item t = .ok r' t') :
    ∃ read loaded, r' = { r with entities := r.entities ++ loaded } ∧
      (modelOnly = false ∧ read = true ∨ modelOnly = true ∧ ∃ cat, item.entry "cat" = .ok cat ∧ t.settings.isKind cat .model = .ok read) ∧
      (read = false ∧ loaded = [] ∨ read = true ∧ ∃ entity, Container.remoteEntity item true = .ok entity ∧ loaded = [entity]) := by
  -- what is loaded is entered the same way, however it was chosen
  have henter : ∀ {read : Bool} {w w' : Session}, (if !read then pure r else do
      let entity ← liftM (Container.remoteEntity item true)
      Container.writeLoad name item
      return { r with entities := r.entities ++ [entity] } : Job Container.RemoteOutputs) w = .ok r' w' →
      ∃ loaded, r' = { r with entities := r.entities ++ loaded } ∧ (read = false ∧ loaded = [] ∨
        read = true ∧ ∃ entity, Container.remoteEntity item true = .ok entity ∧ loaded = [entity]) := by
    intro read w w' hrun
    cases read with
    | false =>
      cases hrun
      exact ⟨[], by simp, .inl ⟨rfl, rfl⟩⟩
    | true =>
      simp only [if_not_true, run_bind_ok, run_lift_ok, run_pure_ok] at hrun
      obtain ⟨entity, _, ⟨hentity, rfl⟩, _, _, -, rfl, -⟩ := hrun
      exact ⟨[entity], rfl, .inr ⟨rfl, entity, hentity, rfl⟩⟩
  unfold loadOutput at h
  cases modelOnly with
  | false =>
    rw [if_neg Bool.false_ne_true, pure_bind] at h
    obtain ⟨loaded, hr, hloaded⟩ := henter h
    exact ⟨true, loaded, hr, .inl ⟨rfl, rfl⟩, hloaded⟩
  | true =>
    simp only [if_true, run_parts] at h
    obtain ⟨cat, hcat, read, hread, h⟩ := h
    obtain ⟨loaded, hr, hloaded⟩ := henter h
    exact ⟨read, loaded, hr, .inr ⟨rfl, cat, hcat, hread⟩, hloaded⟩

theorem loadOutput_table {tb : OutputTable} (h : loadOutput modelOnly name r (outputAfter schema n (.table tb)) t = .ok r' t') :
    ∃ loaded, r'.entities = r.entities ++ loaded ∧ List.Forall₂ (DeclaredBy schema n)
      (if isLoaded modelOnly t.settings tb then [⟨tb, true⟩] else []) loaded := by
  obtain ⟨read, loaded, hr, hread, hloaded⟩ := loadOutput_ok h
  have hread : isLoaded modelOnly t.settings tb = read := by
    rcases hread with ⟨rfl, rfl⟩ | ⟨rfl, cat, hcat, hkind⟩
    · rfl
    · have hcat' : (outputAfter schema n (.table tb)).entry "cat" = .ok tb.category := (outputAfter_sameBut schema n tb).entry (by decide)
      obtain rfl := ok_unique hcat' hcat
      rw [isLoaded, hkind]
      cases read <;> rfl
  refine ⟨loaded, congrArg Container.RemoteOutputs.entities hr, ?_⟩
  rw [hread]
  rcases hloaded with ⟨rfl, rfl⟩ | ⟨rfl, entity, hentity, rfl⟩
  · exact .nil
  · exact .cons hentity .nil

theorem loadOutput_var {v : OutputVariable} (h : loadOutput modelOnly name r v.toValue t = .ok r' t') : r'.entities = r.entities := by
  obtain ⟨read, loaded, hr, -, hloaded⟩ := loadOutput_ok h
  rcases hloaded with ⟨-, rfl⟩ | ⟨-, entity, hentity, -⟩
  · rw [hr, List.append_nil]
  · have hname : v.toValue.entry "object_name" = .error (.missingKey "object_name") := rfl
    rw [Container.remoteEntity, hname] at hentity
    obtain ⟨_, -, hentity⟩ := bind_ok.1 hentity
    cases hentity

theorem takeOutput_declares {o : OutputItem} (h : Container.takeOutput modelOnly called name r (outputAfter schema n o) t = .ok r' t') :
    (called = true → ∀ v, o ≠ .var v) ∧ ∃ new, r'.entities = r.entities ++ new ∧
      List.Forall₂ (DeclaredBy schema n) (outputDeclarations modelOnly called t.settings o) new := by
  rw [takeOutput_eq] at h
  cases called with
  | false =>
    refine ⟨fun hcalled => absurd hcalled Bool.false_ne_true, ?_⟩
    rw [if_neg Bool.false_ne_true] at h
    cases o with
    | table tb => exact loadOutput_table h
    | var v => exact ⟨[], by rw [loadOutput_var h, List.append_nil], .nil⟩
  | true =>
    simp only [if_true, run_parts] at h
    obtain ⟨text, htext, entity, hentity, h⟩ := h
    cases o with
    | var v => cases htext
    | table tb =>
      obtain ⟨loaded, hr, hloaded⟩ := loadOutput_table h
      refine ⟨fun _ _ => OutputItem.noConfusion, entity :: loaded, ?_, .cons hentity hloaded⟩
      rw [hr, List.append_assoc, List.singleton_append]

theorem takeOutputs_declare {os : List OutputItem} : ∀ {r r' : Container.RemoteOutputs} {t t' : Session},
    (os.map (outputAfter schema n)).foldlM (Container.takeOutput modelOnly called name) r t = .ok r' t' →
    (called = true → ∀ v, .var v ∉ os) ∧ ∃ new, r'.entities = r.entities ++ new ∧
      List.Forall₂ (DeclaredBy schema n) (os.flatMap (outputDeclarations modelOnly called t.settings)) new := by
  induction os with
  | nil =>
    intro r r' t t' h
    cases h
    exact ⟨fun _ v => List.not_mem_nil, [], by simp, .nil⟩
  | cons o os ih =>
    intro r r' t t' h
    rw [List.map_cons, List.foldlM_cons] at h
    obtain ⟨r1, t1, hfirst, hrest⟩ := run_bind_ok.1 h
    have hsettings : t1.settings = t.settings := Container.keeps_takeOutput (keeps_writeFile (P := (· = t.settings))) _ _ _ _ _ hfirst rfl
    obtain ⟨hvar, new, hr1, hnew⟩ := takeOutput_declares hfirst
    obtain ⟨hvars, more, hr', hmore⟩ := ih hrest
    rw [hsettings] at hmore
    refine ⟨fun hcalled v hv => ?_, new ++ more, by rw [hr', hr1, List.append_assoc], ?_⟩
    · rcases List.mem_cons.1 hv with hv | hv
      · exact hvar hcalled v hv.symm
      · exact hvars hcalled v hv
    · rw [List.flatMap_cons]
      exact List.rel_append hnew hmore

theorem takeElement_declares {e : Element} {entities entities' : List Value}
    (h : Container.takeElement modelOnly entities (elementAfter schema n e) t = .ok entities' t') :
    (∃ new, entities' = entities ++ new ∧ List.Forall₂ (DeclaredBy schema n) (elementDeclarations modelOnly t.settings e) new) ∧
      (passesText (remoteFilters modelOnly) e.name = true → (∀ v, .var v ∉ e.outputs) ∧
        ∃ path, t.settings.entry (Setting.remote Setting.proceduresPath) = .ok path ∧ HasFile path (e.name ++ ".hdbprocedure") t') := by
  obtain ⟨statements, hsql, hparts⟩ := sql_elementAfter schema n e
  have hhas := Value.has_of_entry hsql
  have hname : (elementAfter schema n e).entry "name" = .ok (.text e.name) := rfl
  have hpasses : Container.passes (if modelOnly then Container.modelFilters else []) (.text e.name) =
      .ok (passesText (remoteFilters modelOnly) e.name) := passes_text (remoteFilters modelOnly) e.name
  simp only [Container.takeElement, hhas, hname, hsql, hparts, hpasses, lift_ok_eq, pure_bind, Bool.not_true, Bool.false_eq_true,
    if_false, run_parts] at h
  obtain ⟨inputs, -, body, -, outputs, houtputs, r, t1, hfold, h⟩ := h
  cases houtputs
  obtain ⟨hvars, new, hr, hnew⟩ := takeOutputs_declare hfold
  have hsettings : t1.settings = t.settings := Keeps.foldlM (fun _ _ =>
    Container.keeps_takeOutput (keeps_writeFile (P := (· = t.settings))) _ _ _ _ _) _ _ hfold rfl
  cases hpass : passesText (remoteFilters modelOnly) e.name with
  | false =>
    rw [hpass, if_neg Bool.false_ne_true] at h
    cases h
    exact ⟨⟨new, hr, hnew⟩, fun hyes => absurd hyes Bool.false_ne_true⟩
  | true =>
    simp only [hpass, if_true, Job.setting, run_parts, run_pure_ok] at h
    obtain ⟨signature, -, text, -, path, hpath, _, _, hwrite, rfl, rfl⟩ := h
    rw [hsettings] at hpath
    obtain ⟨directory, content, hdirectory, -, hread⟩ := Container.writeProcedure_ok hwrite
    exact ⟨⟨new, hr, hnew⟩, fun _ => ⟨hvars hpass, path, hpath, directory, content, hdirectory, hread⟩⟩

theorem takeElements_declare {es : List Element} : ∀ {entities entities' : List Value} {t t' : Session},
    (es.map (elementAfter schema n)).foldlM (Container.takeElement modelOnly) entities t = .ok entities' t' →
    ∃ new, entities' = entities ++ new ∧
      List.Forall₂ (DeclaredBy schema n) (es.flatMap (elementDeclarations modelOnly t.settings)) new := by
  induction es with
  | nil =>
    intro entities entities' t t' h
    cases h
    exact ⟨[], by simp, .nil⟩
  | cons e es ih =>
    intro entities entities' t t' h
    rw [List.map_cons, List.foldlM_cons] at h
    obtain ⟨between, t1, hfirst, hrest⟩ := run_bind_ok.1 h
    have hsettings : t1.settings = t.settings := Container.keeps_takeElement (keeps_writeFile (P := (· = t.settings))) _ _ _ hfirst rfl
    obtain ⟨⟨new, rfl, hnew⟩, -⟩ := takeElement_declares hfirst
    obtain ⟨more, rfl, hmore⟩ := ih hrest
    rw [hsettings] at hmore
    refine ⟨new ++ more, List.append_assoc .., ?_⟩
    rw [List.flatMap_cons]
    exact List.rel_append hnew hmore

end Taking

/-! ## How often a table is declared -/

def OutputTable.hasColumns (t : OutputTable) : Bool := t.entityType.any (· != "")

def OutputTable.isNamed (name : String) (t : OutputTable) : Bool :=
  t.hasColumns && t.objectName.textOrEmpty == name

def OutputItem.table? : OutputItem → Option OutputTable
  | .table t => some t
  | .var _ => none

def tablesOf (es : List Element) : List OutputTable := es.flatMap fun e => e.outputs.filterMap OutputItem.table?

def timesDeclared (name : String) (ds : List Declaration) : Nat := ds.countP fun d => d.table.isNamed name

theorem DeclaredBy.shown {schema : String} {n : Nat} {d : Declaration} {entity : Value} (h : DeclaredBy schema n d entity) :
    d.table.hasColumns = false ∧ entity = .null ∨ d.table.hasColumns = true ∧ ∃ name elements extension,
      d.table.objectName = .text name ∧ d.table.entityType = some elements ∧
      entity = .text ("  entity " ++ name ++ " \x7b\n" ++ elements ++ extension ++ "  \x7d;\n") := by
  have hobject : (outputAfter schema n (.table d.table)).entry "object_name" = .ok d.table.objectName :=
    (outputAfter_sameBut schema n d.table).entry (by decide)
  have hcolumns : (outputAfter schema n (.table d.table)).entry "cds_type" = .ok (.ofText? d.table.entityType) :=
    (outputAfter_sameBut schema n d.table).entry (by decide)
  obtain ⟨extension, htext⟩ : ∃ extension,
      Container.entityText d.table.objectName (.ofText? d.table.entityType) extension = .ok entity := by
    simp only [DeclaredBy, Container.remoteEntity, hobject, hcolumns] at h
    split at h
    · obtain ⟨extension, -, h⟩ := bind_ok.1 h
      exact ⟨extension, h⟩
    · exact ⟨.null, h⟩
  cases hentity : d.table.entityType with
  | none =>
    rw [hentity] at htext
    exact .inl ⟨by rw [OutputTable.hasColumns, hentity]; rfl, (Except.ok.inj htext).symm⟩
  | some elements =>
    by_cases hempty : elements = ""
    · rw [hentity, hempty] at htext
      exact .inl ⟨by rw [OutputTable.hasColumns, hentity, hempty]; rfl, (Except.ok.inj htext).symm⟩
    · have htrue : (Value.ofText? (some elements)).isTruthy = true := by simpa [Value.ofText?, Value.isTruthy] using hempty
      simp only [Container.entityText, hentity, htrue, if_not_true, bind_ok] at htext
      obtain ⟨name, hname, columns, hcols, htext⟩ := htext
      cases hcols
      refine .inr ⟨by rw [OutputTable.hasColumns, hentity]; simpa using hempty, name, elements, ?_⟩
      split at htext
      all_goals
        obtain ⟨more, -, htext⟩ := bind_ok.1 htext
        exact ⟨more, asText_ok.1 hname, rfl, (Except.ok.inj htext).symm⟩

section Counting

variable (modelOnly : Bool) (st : Settings) (name : String)

theorem timesDeclared_output (called : Bool) (o : OutputItem) : timesDeclared name (outputDeclarations modelOnly called st o) =
      (if called then o.table?.toList.countP (·.isNamed name) else 0) +
        o.table?.toList.countP (fun t => t.isNamed name && isLoaded modelOnly st t) := by
  cases o with
  | var v => cases called <;> rfl
  | table t =>
    cases called <;> cases hload : isLoaded modelOnly st t <;> cases hname : t.isNamed name <;>
      simp [outputDeclarations, timesDeclared, OutputItem.table?, hload, hname]

theorem timesDeclared_append (ds ds' : List Declaration) :
    timesDeclared name (ds ++ ds') = timesDeclared name ds + timesDeclared name ds' := List.countP_append

theorem timesDeclared_element (e : Element) : timesDeclared name (elementDeclarations modelOnly st e) =
      (if passesText (remoteFilters modelOnly) e.name then (tablesOf [e]).countP (·.isNamed name) else 0) +
        (tablesOf [e]).countP (fun t => t.isNamed name && isLoaded modelOnly st t) := by
  rw [elementDeclarations, tablesOf, List.flatMap_cons, List.flatMap_nil, List.append_nil]
  generalize passesText (remoteFilters modelOnly) e.name = called
  induction e.outputs with
  | nil => cases called <;> rfl
  | cons o os ih =>
    have hsplit : (o :: os).filterMap OutputItem.table? = o.table?.toList ++ os.filterMap OutputItem.table? := by
      cases o <;> rfl
    rw [List.flatMap_cons, timesDeclared_append, ih, timesDeclared_output, hsplit, List.countP_append, List.countP_append]
    cases called with
    | false =>
      simp only [Bool.false_eq_true, if_false]
      omega
    | true =>
      simp only [if_true]
      omega

theorem timesDeclared_elements (es : List Element) : timesDeclared name (es.flatMap (elementDeclarations modelOnly st)) =
      (tablesOf (es.filter fun e => passesText (remoteFilters modelOnly) e.name)).countP (·.isNamed name) +
        (tablesOf es).countP (fun t => t.isNamed name && isLoaded modelOnly st t) := by
  induction es with
  | nil => rfl
  | cons e es ih =>
    have hsplit : ∀ xs : List Element, tablesOf (e :: xs) = tablesOf [e] ++ tablesOf xs := by
      intro xs
      simp [tablesOf]
    rw [List.flatMap_cons, timesDeclared_append, ih, timesDeclared_element, hsplit es, List.countP_append]
    cases hpass : passesText (remoteFilters modelOnly) e.name with
    | false =>
      rw [List.filter_cons_of_neg (by simp [hpass])]
      simp only [Bool.false_eq_true, if_false]
      omega
    | true =>
      rw [List.filter_cons_of_pos (by simp [hpass]), hsplit (es.filter _), List.countP_append]
      simp only [if_true]
      omega

theorem timesDeclared_twice (es : List Element) :
    timesDeclared name (es.flatMap (elementDeclarations false st)) = 2 * (tablesOf es).countP (·.isNamed name) := by
  have hall : (es.filter fun e => passesText (remoteFilters false) e.name) = es := List.filter_eq_self.2 fun _ _ => rfl
  have hloaded : (fun t : OutputTable => t.isNamed name && isLoaded false st t) = fun t => t.isNamed name := by
    funext t
    rw [isLoaded, Bool.not_false, Bool.true_or, Bool.and_true]
  rw [timesDeclared_elements, hall, hloaded]
  omega

end Counting

end TraceArtifacts
