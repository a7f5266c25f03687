import TraceArtifacts.Proofs.Relations

/-!
# Proofs: what a procedure contributes

A contribution that is made holds an item for each input table, output table and variable of its procedure, in their order, and a
call that passes them by name (`Contributes`).
-/

namespace TraceArtifacts

variable {s s' : PartState} {x : ProcedureName} {layers linkType t v v' : Value}

def SameSettings (st st' : Settings) : Prop :=
  ∀ k, k ≠ Setting.sourceMapping → st'.entry k = st.entry k

theorem SameSettings.refl (st : Settings) : SameSettings st st := fun _ _ => rfl

theorem SameSettings.trans {st st' st'' : Settings} (h1 : SameSettings st st') (h2 : SameSettings st' st'') : SameSettings st st'' :=
  fun k hk => (h2 k hk).trans (h1 k hk)

theorem sameSettings_set (st : Settings) (mapping : Value) : SameSettings st (st.set Setting.sourceMapping mapping) := by
  intro k hk
  show need k ((Fields.set Setting.sourceMapping mapping st).lookup k) = need k (st.lookup k)
  rw [Fields.lookup_set_ne hk]

/-! ## Reading table types -/

theorem readColumns_ok {columns : List String} (h : readColumns v = .ok columns v') : v' = v := by
  simp only [readColumns, run_get_bind] at h
  cases v with
  | text s =>
    obtain ⟨-, rfl⟩ := run_lift_ok.1 h
    rfl
  | list xs =>
    obtain ⟨_, _, -, h⟩ := run_bind_ok.1 h
    exact (run_throw_ok.1 h).elim
  | _ => exact (run_throw_ok.1 h).elim

theorem structureColumns_ok {mapping : Outcome Value} {s : String} (h : structureColumns mapping v = .ok s v') : v' = v := by
  simp only [structureColumns, run_parts, run_pure_ok] at h
  obtain ⟨_, _, hc, _, -, _, -, -, rfl⟩ := h
  exact readColumns_ok hc

theorem entityColumns_ok {mapping : Outcome Value} {s : Option String} (h : entityColumns mapping v = .ok s v') : v' = v := by
  simp only [entityColumns, run_parts] at h
  obtain ⟨b, -, h⟩ := h
  cases b with
  | false => exact (run_pure_ok.1 h).2.symm
  | true =>
    simp only [if_true, run_parts, run_pure_ok] at h
    obtain ⟨_, _, hc, _, -, _, -, -, rfl⟩ := h
    exact readColumns_ok hc

theorem reading_ok {place : Place} {c : Outcome Value → Change α} {key : String} (hc : ∀ {m v v' a}, c m v = .ok a v' → v' = v) {a : α}
    (h : PartStep.reading place c key s = .ok a s') : s' = s := by
  simp only [PartStep.reading, run_get_bind] at h
  cases hw : Change.within place (c (s.settings.entry key)) s.object with
  | error e o =>
    simp only [hw, run_bind_ok, run_throw_ok, and_false, exists_false] at h
  | ok b o =>
    simp only [hw, run_bind_ok, run_set_ok, run_pure_ok] at h
    obtain ⟨_, _, rfl, -, rfl⟩ := h
    obtain ⟨w, w', hplace, hcw, rfl⟩ := Value.within_ok hw
    rw [hc hcw, Value.putAt_self hplace]

/-! ## The items of tables and variables -/

structure InputFrom (layers linkType : Value) (x : ProcedureName) (t : Value) (i : InputItem) :
    Prop where
  name : t.entry "interface_name" = .ok (.text i.name)
  tableType : t.entry "table_type" = .ok i.tableType
  link : ∃ ks, linksOfTable layers .incoming (.text x.1) (.text x.2) (.text i.name) = .ok ks ∧ i.link = ks.head?
  source : ∀ k, i.link = some k → linkTarget linkType k = .ok i.source
  dataset : i.link = none → ∃ select schema table, t.entry "select" = .ok (.text select) ∧
    parseDataset select = (some schema, table) ∧ i.source = .text ("\"" ++ schema ++ "\".\"" ++ table ++ "\"")

structure OutputFrom (layers : Value) (x : ProcedureName) (t : Value) (u : OutputTable) : Prop where
  name : t.entry "interface_name" = .ok u.name
  tableType : t.entry "table_type" = .ok u.tableType
  dbObjectName : t.entry "dbobject_name" = .ok u.dbObjectName
  objectName : t.entry "object_name" = .ok u.objectName
  category : t.entry "cat" = .ok u.category
  links : linksOfTable layers .outgoing (.text x.1) (.text x.2) u.name = .ok u.links

/-- An item that is built for a variable of a procedure. -/
structure VariableFrom (t : Value) (v : OutputVariable) : Prop where
  name : t.entry "interface_name" = .ok v.name
  dataType : t.entry "data_type" = .ok v.dataType

theorem noteSource_ok {select : Value} {u : Unit} (h : noteSource select s = .ok u s') :
    s'.object = s.object ∧ SameSettings s.settings s'.settings := by
  simp only [noteSource, run_parts, run_modify_ok] at h
  obtain ⟨_, -, mapping, -, rfl⟩ := h
  exact ⟨rfl, sameSettings_set _ mapping⟩

theorem asTextReceiver_ok {s : String} : v.asTextReceiver = .ok s ↔ v = .text s := by
  cases v <;> simp [Value.asTextReceiver]

theorem sourceNames_ok {n : Value × String × Option String} (h : sourceNames t = .ok n) :
    ∃ select schema table, t.entry "select" = .ok (.text select) ∧ parseDataset select = (some schema, table) ∧
      n.1 = .text select ∧ n.2.1 = "\"" ++ schema ++ "\".\"" ++ table ++ "\"" := by
  simp only [sourceNames, bind_ok] at h
  obtain ⟨select, hselect, synonym, -, h⟩ := h
  split at h <;> simp only [bind_ok] at h
  · obtain ⟨_, -, _, -, text, htext, h⟩ := h
    generalize hparse : parseDataset text = p at h
    obtain ⟨_ | schema, table⟩ := p
    · cases h
    · obtain rfl := asTextReceiver_ok.1 htext
      cases h
      exact ⟨text, schema, table, hselect, hparse, rfl, rfl⟩
  · obtain ⟨_, -, text, htext, h⟩ := h
    generalize hparse : parseDataset text = p at h
    obtain ⟨_ | schema, table⟩ := p
    · cases h
    · obtain rfl := asTextReceiver_ok.1 htext
      cases h
      exact ⟨text, schema, table, hselect, hparse, rfl, rfl⟩

theorem buildInput_ok {n : Nat} {i : InputItem} (h : buildInput layers (.text x.1) (.text x.2) linkType t n s = .ok i s') :
    (s'.object = s.object ∧ SameSettings s.settings s'.settings) ∧ InputFrom layers linkType x t i := by
  simp only [buildInput, run_parts] at h
  obtain ⟨interface, hi, _, -, type, htype, _, t1, ht1, ks, hks, h⟩ := h
  obtain rfl : t1 = s := reading_ok structureColumns_ok ht1
  cases ks with
  | cons k ks =>
    simp only [run_parts, run_pure_ok] at h
    obtain ⟨source, hsource, name, hname, rfl, rfl⟩ := h
    obtain rfl := asText_ok.1 hname
    refine ⟨⟨rfl, .refl _⟩, hi, htype, ⟨k :: ks, hks, rfl⟩, ?_, fun hk => by cases hk⟩
    rintro k' hk'
    cases hk'
    exact hsource
  | nil =>
    simp only [run_parts, run_pure_ok] at h
    obtain ⟨⟨select, source, synonym⟩, hnames, _, t2, ht2, name, hname, rfl, rfl⟩ := h
    obtain rfl := asText_ok.1 hname
    obtain ⟨text, schema, table, hselect, hparse, -, hsource⟩ := sourceNames_ok hnames
    exact ⟨noteSource_ok ht2, hi, htype, ⟨[], hks, rfl⟩, fun k hk => by simp at hk,
      fun _ => ⟨text, schema, table, hselect, hparse, congrArg Value.text hsource⟩⟩

theorem buildOutputTable_ok {n : Nat} {o : OutputTable} (h : buildOutputTable layers (.text x.1) (.text x.2) t n s = .ok o s') :
    s' = s ∧ OutputFrom layers x t o := by
  simp only [buildOutputTable, run_parts, run_pure_ok] at h
  obtain ⟨name, hname, db, hdb, _, -, object, hobject, type, htype, _, t1, ht1, _, t2, ht2, cat, hcat, ks, hks, rfl, rfl⟩ := h
  obtain rfl : t1 = s := reading_ok entityColumns_ok ht1
  obtain rfl : t2 = t1 := reading_ok structureColumns_ok ht2
  exact ⟨rfl, hname, htype, hdb, hobject, hcat, hks⟩

theorem buildOutputVariable_ok {v : OutputVariable} (h : buildOutputVariable t = .ok v) : VariableFrom t v := by
  simp only [buildOutputVariable, bind_ok, pure_ok] at h
  obtain ⟨name, hname, dataType, hdata, _, -, rfl⟩ := h
  exact ⟨hname, hdata⟩

/-! ## Contributions -/

/-- What a procedure contributes: items for its tables and variables, in order, and a call that names them all. -/
structure Contributes (layers linkType : Value) (x : ProcedureName) (o : Value) (c : Contribution) :
    Prop where
  procedure : procedureName o = .ok c.procedure
  inputs : ∃ ts, partsUnder "input_tables" o = .ok ts ∧ List.Forall₂ (InputFrom layers linkType x) ts c.inputs
  outputs : ∃ ts us tables vars, partsUnder "output_tables" o = .ok ts ∧
    partsUnder "output_vars" o = .ok us ∧ List.Forall₂ (OutputFrom layers x) ts tables ∧
    List.Forall₂ VariableFrom us vars ∧ c.outputs = tables.map .table ++ vars.map .var
  call : ∃ names, List.Forall₂ (fun (o : OutputItem) n => o.name = .text n) c.outputs names ∧
    c.call = { name := c.procedure, sql := callTemplate (c.inputs.map InputItem.name) names }

theorem forall₂_zipIdx {R : α → β → Prop} {xs : List α} {ys : List β}
    (h : List.Forall₂ (fun p => R p.1) xs.zipIdx ys) : List.Forall₂ R xs ys := by
  have := List.forall₂_map_left_iff.2 h
  rwa [List.zipIdx_map_fst] at this

theorem contribution_ok {c : Contribution} (h : contribution layers (.text x.1) (.text x.2) linkType s = .ok c s') :
    s'.object = s.object ∧ SameSettings s.settings s'.settings ∧ Contributes layers linkType x s.object c := by
  simp only [contribution, run_parts, run_pure_ok] at h
  obtain ⟨ts, hts, inputs, t1, h1, us, hus, tables, t2, h2, vs, hvs, vars, t3, h3, names, hnames, procedure, hproc, rfl, rfl⟩ := h
  -- the three loops: inputs may note data sources, the other two leave the state as it is
  have hin := mapM_run_ok (I := fun _ (t : PartState) => t.object = s.object ∧ SameSettings s.settings t.settings)
    (R := fun p => InputFrom layers linkType x p.1)
    (fun p _ t i t' hI hp => by
      obtain ⟨⟨ho, hst⟩, hi⟩ := buildInput_ok hp
      exact ⟨⟨ho.trans hI.1, hI.2.trans hst⟩, hi⟩) ⟨rfl, .refl _⟩ h1
  have hout := mapM_run_ok (I := fun _ t => t = t1) (R := fun p => OutputFrom layers x p.1) (fun p _ t o t' hI hp => by
      obtain ⟨rfl, ho⟩ := buildOutputTable_ok hp
      exact ⟨hI, ho⟩) rfl h2
  have hvar := mapM_run_ok (I := fun _ t => t = t2) (R := VariableFrom) (fun p _ t o t' hI hp => by
      obtain ⟨hv, rfl⟩ := run_lift_ok.1 hp
      exact ⟨hI, buildOutputVariable_ok hv⟩) rfl h3
  obtain rfl := hout.1
  obtain rfl := hvar.1
  refine ⟨hin.1.1, hin.1.2, hproc, ⟨ts, hts, forall₂_zipIdx hin.2⟩,
    ⟨us, vs, tables, vars, hus, hvs, forall₂_zipIdx hout.2, hvar.2, rfl⟩, names, ?_, rfl⟩
  exact (mapM_ok.1 hnames).imp fun o n ho => asText_ok.1 ho

theorem contributionOf_iff {s s' : BuildState} {c : Contribution} : contributionOf (addressOf x) linkType s = .ok c s' ↔
      ∃ o p, procedureAt? s.layers x = some o ∧
        contribution s.layers (.text x.1) (.text x.2) linkType { settings := s.settings, object := o } = .ok c p ∧
        s' = { settings := p.settings, layers := (addressOf x).put p.object s.layers } := by
  rw [contributionOf, run_get_bind]
  simp only [run_parts, address_object_ok]
  constructor
  · rintro ⟨o, ho, h⟩
    cases hc : contribution s.layers (.text x.1) (.text x.2) linkType { settings := s.settings, object := o } with
    | error e p => simp only [addressOf, hc, run_bind_ok, run_throw_ok, and_false, exists_false] at h
    | ok c' p =>
      simp only [addressOf, hc, run_bind_ok, run_set_ok, run_pure_ok] at h
      obtain ⟨_, _, rfl, rfl, rfl⟩ := h
      exact ⟨o, p, ho, hc, rfl⟩
  · rintro ⟨o, p, ho, hc, rfl⟩
    refine ⟨o, ho, ?_⟩
    simp only [addressOf, hc]
    rfl

theorem contributionOf_ok {s s' : BuildState} {c : Contribution} (h : contributionOf (addressOf x) linkType s = .ok c s') :
    s'.layers = s.layers ∧ SameSettings s.settings s'.settings ∧
      ∃ o, procedureAt? s.layers x = some o ∧ Contributes s.layers linkType x o c := by
  obtain ⟨o, p, ho, hc, rfl⟩ := contributionOf_iff.1 h
  obtain ⟨hobj, hst, hcon⟩ := contribution_ok hc
  refine ⟨?_, hst, o, ho, hcon⟩
  show (addressOf x).put p.object s.layers = s.layers
  rw [hobj]
  exact put_self ho

end TraceArtifacts
