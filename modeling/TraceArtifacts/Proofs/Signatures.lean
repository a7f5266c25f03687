import TraceArtifacts.Container.Local
import TraceArtifacts.Proofs.Calls
import TraceArtifacts.Proofs.Typing

/-!
# Proofs: calls agree with signatures

The signature of a base procedure and the calls of it are made from different records by different steps.
-/

namespace TraceArtifacts

variable {filters keys names : List String} {ts us vs : List Value} {t t' : Session} {key mark name s : String}
  {layers o object outputs v : Value}

/-! ## Signatures -/

def signatureText (inputs outputs : List (String × String)) : String :=
  String.intercalate ", " (inputs.map (fun p => "in " ++ p.1 ++ " " ++ p.2) ++ outputs.map fun p => "out " ++ p.1 ++ " " ++ p.2)

def IsParameter (t : Value) (name : String) : Prop :=
  t.entry "interface_name" = .ok (.text name) ∧ ((∃ v, t.entry "table_type" = .ok v) ∧ Lacks "data_type" t ∨
      (∃ v, t.entry "data_type" = .ok v) ∧ Lacks "table_type" t)

theorem parameterType_absent {fs : Fields} (h : Lacks key (.object fs)) : Container.parameterType key (.object fs) = .ok "" := by
  unfold Container.parameterType
  rw [Value.has_object, h fs rfl]
  rfl

theorem parameterType_present {t : Value} (hv : t.entry key = .ok v) (hn : t.entry "interface_name" = .ok (.text name))
    (h : Container.parameterType key t = .ok s) : ∃ type, s = " " ++ name ++ " " ++ type := by
  obtain ⟨fs, rfl, hfs⟩ := Value.entry_ok.1 hv
  simp only [Container.parameterType, Value.has_object, hfs, Value.textEntry, hn, bind_ok,
    pure_ok, Except.ok.injEq, exists_eq_left', Option.isSome_some, Bool.not_true,
    Bool.false_eq_true, if_false, Value.asText] at h
  obtain ⟨type, -, rfl⟩ := h
  exact ⟨type, rfl⟩

theorem renderParameter_ok {t : Value} (ht : IsParameter t name) (h : Container.renderParameter mark t = .ok s) :
    ∃ type, s = mark ++ " " ++ name ++ " " ++ type := by
  obtain ⟨hn, htype⟩ := ht
  obtain ⟨fs, rfl, -⟩ := Value.entry_ok.1 hn
  simp only [Container.renderParameter, bind_ok, pure_ok] at h
  obtain ⟨s1, h1, s2, h2, rfl⟩ := h
  rcases htype with ⟨⟨v, hv⟩, hlacks⟩ | ⟨⟨v, hv⟩, hlacks⟩
  · obtain ⟨type, rfl⟩ := parameterType_present hv hn h1
    obtain rfl := ok_unique (parameterType_absent hlacks) h2
    exact ⟨type, by simp [String.append_assoc]⟩
  · obtain ⟨type, rfl⟩ := parameterType_present hv hn h2
    obtain rfl := ok_unique (parameterType_absent hlacks) h1
    exact ⟨type, by simp [String.append_assoc]⟩

theorem renderParameters_ok (hv : v.members = .ok ts) (hts : List.Forall₂ IsParameter ts names)
    (h : Container.renderParameters mark v = .ok s) :
    ∃ ps : List (String × String), ps.map Prod.fst = names ∧
      s = String.intercalate ", " (ps.map fun p => mark ++ " " ++ p.1 ++ " " ++ p.2) := by
  simp only [Container.renderParameters, hv, bind_ok, pure_ok, Except.ok.injEq, exists_eq_left'] at h
  obtain ⟨texts, htexts, rfl⟩ := h
  have hall := mapM_ok.1 htexts
  clear htexts hv
  suffices hps : ∃ ps : List (String × String), ps.map Prod.fst = names ∧ texts = ps.map fun p => mark ++ " " ++ p.1 ++ " " ++ p.2 by
    obtain ⟨ps, hnames, rfl⟩ := hps
    exact ⟨ps, hnames, rfl⟩
  induction hts generalizing texts with
  | nil =>
    cases hall
    exact ⟨[], rfl, rfl⟩
  | cons ht _ ih =>
    obtain ⟨s, texts', hs, hrest, rfl⟩ := List.forall₂_cons_left_iff.1 hall
    obtain ⟨type, rfl⟩ := renderParameter_ok ht hs
    obtain ⟨ps, rfl, rfl⟩ := ih texts' hrest
    exact ⟨(_, type) :: ps, rfl, rfl⟩

def parametersOf (mark : String) (v : Value) : Outcome String :=
  if v.isTruthy then Container.renderParameters mark v else pure ""

theorem signature_eq (inputs outputs : Value) : Container.signature inputs outputs = (do
      let ins ← parametersOf "in" inputs
      let outs ← parametersOf "out" outputs
      return ins ++ (if inputs.isTruthy && outputs.isTruthy then ", " else "") ++ outs) := by
  unfold Container.signature parametersOf
  cases inputs.isTruthy <;> cases outputs.isTruthy <;> rfl

theorem parametersOf_ok (hv : v.members = .ok ts) (hts : List.Forall₂ IsParameter ts names) (h : parametersOf mark v = .ok s) :
    ∃ ps : List (String × String), ps.map Prod.fst = names ∧ v.isTruthy = !ps.isEmpty ∧
      s = String.intercalate ", " (ps.map fun p => mark ++ " " ++ p.1 ++ " " ++ p.2) := by
  have htrue := Value.isTruthy_of_members hv
  unfold parametersOf at h
  cases hts with
  | nil =>
    rw [if_neg (by simp [htrue])] at h
    cases h
    exact ⟨[], rfl, htrue, rfl⟩
  | cons ht hrest =>
    rw [if_pos (by simp [htrue])] at h
    obtain ⟨ps, hnames, rfl⟩ := renderParameters_ok hv (.cons ht hrest) h
    cases ps with
    | nil => simp at hnames
    | cons p ps => exact ⟨p :: ps, hnames, by simp [htrue], rfl⟩

theorem signature_ok {inputs : Value} {ins outs : List String} (hts : inputs.members = .ok ts) (hus : outputs.members = .ok us)
    (hins : List.Forall₂ IsParameter ts ins) (houts : List.Forall₂ IsParameter us outs) (h : Container.signature inputs outputs = .ok s) :
    ∃ ps qs, ps.map Prod.fst = ins ∧ qs.map Prod.fst = outs ∧ s = signatureText ps qs := by
  simp only [signature_eq, bind_ok, pure_ok] at h
  obtain ⟨s1, h1, s2, h2, rfl⟩ := h
  obtain ⟨ps, hps, htrue, rfl⟩ := parametersOf_ok hts hins h1
  obtain ⟨qs, hqs, htrue', rfl⟩ := parametersOf_ok hus houts h2
  refine ⟨ps, qs, hps, hqs, ?_⟩
  rw [htrue, htrue', signatureText]
  cases ps with
  | nil => simp
  | cons p ps =>
    cases qs with
    | nil => simp
    | cons q qs =>
      rw [String.intercalate_append_of_ne_nil (by simp) (by simp)]
      simp [String.append_assoc]

/-! ## Parameters of contributions -/

/-- A procedure whose tables have no data type, and whose variables have no table type. -/
structure TypedProcedure (o : Value) : Prop where
  inputs : ∀ t, TableOf "input_tables" o t → Lacks "data_type" t
  outputs : ∀ t, TableOf "output_tables" o t → Lacks "data_type" t
  vars : ∀ t, TableOf "output_vars" o t → Lacks "table_type" t

theorem TypedProcedure.sameBut {o' : Value} (h : TypedProcedure o) (hs : o.SameBut keys o')
    (hkeys : ∀ k ∈ ["input_tables", "output_tables", "output_vars"], k ∉ keys) : TypedProcedure o' := by
  refine ⟨fun t ht => h.inputs t ?_, fun t ht => h.outputs t ?_, fun t ht => h.vars t ?_⟩ <;>
    rwa [TableOf, ← hs.partsUnder (hkeys _ (by decide))]

theorem Stored.typed (h : Stored (fun b => TypedParts b.inputTables b.outputTables b.outputVars) o) : TypedProcedure o := by
  obtain ⟨b, name, category, hb, rfl⟩ := h
  refine ⟨?_, ?_, ?_⟩
  · rintro t ⟨ts, hts, ht⟩
    exact hb.inputs ts hts t ht
  · rintro t ⟨ts, hts, ht⟩
    exact hb.outputs ts hts t ht
  · rintro t ⟨ts, hts, ht⟩
    exact hb.vars ts hts t ht

section Contributed

variable {linkType : Value} {x : ProcedureName} {c : Contribution} (hc : Contributes layers linkType x o c) (ho : TypedProcedure o)
include hc ho

theorem Contributes.inputParameters : ∃ ts, partsUnder "input_tables" o = .ok ts ∧
    List.Forall₂ IsParameter ts (c.inputs.map InputItem.name) := by
  obtain ⟨ts, hts, hitems⟩ := hc.inputs
  refine ⟨ts, hts, List.forall₂_map_right_iff.2 ?_⟩
  refine (forall₂_mem hitems).imp ?_
  rintro t i ⟨ht, -, hi⟩
  exact ⟨hi.name, .inl ⟨⟨_, hi.tableType⟩, ho.inputs t ⟨ts, hts, ht⟩⟩⟩

theorem Contributes.outputParameters : ∃ us vs names, partsUnder "output_tables" o = .ok us ∧
    partsUnder "output_vars" o = .ok vs ∧ List.Forall₂ IsParameter (us ++ vs) names ∧
    c.call = { name := c.procedure, sql := callTemplate (c.inputs.map InputItem.name) names } := by
  obtain ⟨us, vs, tables, vars, hus, hvs, htables, hvars, houts⟩ := hc.outputs
  obtain ⟨names, hnames, hcall⟩ := hc.call
  refine ⟨us, vs, names, hus, hvs, ?_, hcall⟩
  -- an item stands for a parameter of whatever name it has
  have hitems : List.Forall₂ (fun t (u : OutputItem) => ∀ n, u.name = .text n → IsParameter t n) (us ++ vs) c.outputs := by
    rw [houts]
    refine List.rel_append (List.forall₂_map_right_iff.2 ?_) (List.forall₂_map_right_iff.2 ?_)
    · refine (forall₂_mem htables).imp ?_
      rintro t u ⟨ht, -, hu⟩ n hn
      exact ⟨hu.name.trans (congrArg _ hn), .inl ⟨⟨_, hu.tableType⟩, ho.outputs t ⟨us, hus, ht⟩⟩⟩
    · refine (forall₂_mem hvars).imp ?_
      rintro t v ⟨ht, -, hv⟩ n hn
      exact ⟨hv.name.trans (congrArg _ hn), .inr ⟨⟨_, hv.dataType⟩, ho.vars t ⟨vs, hvs, ht⟩⟩⟩
  exact forall₂_comp (fun h hn => h _ hn) hitems hnames

end Contributed

/-! ## The files of base procedures -/

theorem appendVariables_ok {a : Address} (h : Container.appendVariables a object t = .ok outputs t')
    (hus : partsUnder "output_tables" object = .ok us) (hvs : partsUnder "output_vars" object = .ok vs) :
    outputs.members = .ok (us ++ vs) := by
  simp only [Container.appendVariables, run_parts] at h
  obtain ⟨tables, htables, b, hb, h⟩ := h
  obtain ⟨tables', htables', hus⟩ := bind_ok.1 hus
  obtain rfl : tables = tables' := ok_unique htables htables'
  simp only [partsUnder, Value.entryOr, hb, bind_ok, Except.ok.injEq, exists_eq_left'] at hvs
  cases b with
  | false =>
    simp only [Bool.not_false, if_true, run_pure_ok] at h
    simp only [Bool.false_eq_true, if_false, pure_ok, exists_eq_left'] at hvs
    cases hvs
    rw [← h.1, hus, List.append_nil]
  | true =>
    simp only [if_not_true, run_parts, run_pure_ok] at h
    obtain ⟨vars, hvars, _, -, ms, hms, w, hw, _, _, -, rfl, rfl⟩ := h
    simp only [if_true, hvars, Except.ok.injEq, exists_eq_left'] at hvs
    obtain rfl := ok_unique hvs hms
    cases tables with
    | list ts =>
      cases hus
      cases hw
      rfl
    | _ => cases hw

theorem baseProcedureFile_ok {mapSources : Bool} {y : ProcedureName} (hts : partsUnder "input_tables" object = .ok ts)
    (hus : partsUnder "output_tables" object = .ok us) (hvs : partsUnder "output_vars" object = .ok vs) {file : Container.ProcedureFile}
    (h : Container.baseProcedureFile filters mapSources (.text y.1) (.text y.2) object t = .ok (some file) t') :
    procedureName object = .ok file.name ∧ ∃ inputs outputs, inputs.members = .ok ts ∧
      outputs.members = .ok (us ++ vs) ∧ Container.signature inputs outputs = .ok file.signature := by
  simp only [Container.baseProcedureFile, run_parts] at h
  obtain ⟨b, -, h⟩ := h
  cases b with
  | false => simp [run_pure_ok] at h
  | true =>
    simp only [if_not_true, run_parts] at h
    obtain ⟨metadata, hmeta, name, hname, b, -, h⟩ := h
    cases b with
    | false => simp [run_pure_ok] at h
    | true =>
      simp only [if_not_true, run_parts, run_pure_ok, Option.some.injEq] at h
      obtain ⟨inputs, hinputs, outputs, t1, houtputs, sig, hsig, _, -, _, -, _, _, -, rfl, rfl⟩ := h
      refine ⟨?_, inputs, outputs, ?_, appendVariables_ok houtputs hus hvs, hsig⟩
      · obtain ⟨fs, rfl, hfs⟩ := Value.entry_ok.1 hmeta
        obtain ⟨ms, rfl, hms⟩ := Value.entry_ok.1 hname
        simp only [procedureName, Value.has_object, hfs, hmeta, Value.entryOr_object, hms, bind_ok,
          Except.ok.injEq, exists_eq_left', Option.isSome_some, Bool.not_true, Bool.false_eq_true,
          if_false, Option.getD_some]
      · obtain ⟨inputs', hinputs', hts⟩ := bind_ok.1 hts
        obtain rfl := ok_unique hinputs hinputs'
        exact hts

/-- A call agrees with the file of a base procedure: they have the same name, and the call names the parameters of the
signature in their order, which are the inputs, the output tables and the variables. It passes just the inputs by value. -/
def Agrees (c : CallItem) (object : Value) (file : Container.ProcedureFile) : Prop :=
  ∃ ts us vs ins outs, partsUnder "input_tables" object = .ok ts ∧
    partsUnder "output_tables" object = .ok us ∧ partsUnder "output_vars" object = .ok vs ∧
    ts.mapM (Value.textEntry · "interface_name") = .ok (ins.map Prod.fst) ∧
    (us ++ vs).mapM (Value.textEntry · "interface_name") = .ok (outs.map Prod.fst) ∧
    file.name = c.name ∧ file.signature = signatureText ins outs ∧
    c.sql = callTemplate (ins.map Prod.fst) (outs.map Prod.fst)

theorem names_ok (h : List.Forall₂ IsParameter ts names) : ts.mapM (Value.textEntry · "interface_name") = .ok names := by
  refine mapM_ok.2 (h.imp fun t n ht => ?_)
  rw [Value.textEntry, ht.1]
  rfl

theorem Contributes.agrees {linkType : Value} {y : ProcedureName} {c : Contribution} (hc : Contributes layers linkType y o c)
    (ho : TypedProcedure o) (hs : o.SameBut keys object)
    (hkeys : ∀ k ∈ ["input_tables", "output_tables", "output_vars", "metadata"], k ∉ keys) {mapSources : Bool}
    {file : Container.ProcedureFile}
    (h : Container.baseProcedureFile filters mapSources (.text y.1) (.text y.2) object t = .ok (some file) t') :
    Agrees c.call object file := by
  obtain ⟨ts, hts, hins⟩ := hc.inputParameters ho
  obtain ⟨us, vs, names, hus, hvs, houts, hcall⟩ := hc.outputParameters ho
  rw [← hs.partsUnder (hkeys _ (by decide))] at hts hus hvs
  obtain ⟨hname, inputs, outputs, hinputs, houtputs, hsig⟩ := baseProcedureFile_ok hts hus hvs h
  obtain ⟨ps, qs, hps, hqs, hsig⟩ := signature_ok hinputs houtputs hins houts hsig
  have hproc : procedureName object = .ok c.procedure := by
    rw [← hc.procedure, procedureName, procedureName, hs.has (hkeys _ (by decide)), hs.entry (hkeys _ (by decide))]
  refine ⟨ts, us, vs, ps, qs, hts, hus, hvs, ?_, ?_, ?_, hsig, ?_⟩
  · rw [hps]
    exact names_ok hins
  · rw [hqs]
    exact names_ok houts
  · rw [hcall]
    exact ok_unique hname hproc
  · rw [hcall, hps, hqs]

theorem forEachProcedure_eq (hb : IsBaseLayer layers) (step : Value → Value → Value → Job Unit) : Container.forEachProcedure layers step =
      (proceduresOf layers).forM fun p => step (.text p.1) (.text p.2.1) p.2.2 := by
  obtain ⟨rows, h⟩ := hb
  unfold Container.forEachProcedure
  rw [h.entry, h.procedures]
  simp only [lift_ok_eq, pure_bind, members_object, List.forM_eq_forM, List.forM_map]
  refine forM_rows (m := Job) fun p hp => ?_
  obtain ⟨fns, hfns, hnd⟩ := h.row p hp
  rw [h.item hp, rowProcedures, hfns]
  simp only [lift_ok_eq, pure_bind, members_object, List.forM_map, Value.isRecord, if_true, Value.toFields]
  refine forM_congr_mem fun q hq => ?_
  rw [Value.item_object, Fields.lookup_of_mem hnd hq]
  rfl

/-- What calls and base procedures of some layers have to do with each other. -/
structure CallsAgree (layers : Value) (relations : List Relation) (elements : List Element) : Prop where
  listed : layers.entry consumptionKey = .ok (.list (elements.map Element.toValue))
  related : buildRelations layers = .ok relations
  written : ∀ path filters mapSources t, t.settings.entry Setting.layers = .ok layers →
    Container.writeBaseProcedures path filters mapSources t =
      ((proceduresOf layers).forM fun p => Container.writeBaseProcedure path filters mapSources (.text p.1) (.text p.2.1) p.2.2) t
  calls : ∀ e ∈ elements, ∀ c, .call c ∈ e.body → ∃ y object, CallFor relations e y c ∧ (y.1, y.2, object) ∈ proceduresOf layers ∧
    ∀ filters mapSources t file t', Container.baseProcedureFile filters mapSources (.text y.1) (.text y.2) object t =
        .ok (some file) t' → Agrees c object file

/-- Whatever is merged, the calls of the layers that a trace is processed to agree with the files of base procedures that are
written from these layers. -/
theorem processTrace_calls_agree {raiseOnError logStatements own : Bool} {s s' : Session} {u : Unit}
    (h : processTrace raiseOnError logStatements own s = .ok u s')
    (hl : s.settings.entry Setting.layers = .ok (.object [])) (ht : TypedTrace s.trace) :
    (s.trace.isTruthy = false ∧ s' = s) ∨ ∃ layers relations elements,
      s'.settings.entry Setting.layers = .ok layers ∧ CallsAgree layers relations elements := by
  refine (processTrace_processed storesAs_typed h hl ht).imp_right ?_
  rintro ⟨grouped, final, relations, elements, hp⟩
  refine ⟨final, relations, elements, hp.layers, hp.listed, hp.relations_final, ?_, fun e he c hc => ?_⟩
  · intro path filters mapSources t ht
    have hrun : Job.layers t = .ok final t := run_bind_ok.2 ⟨t, t, run_get_ok.2 ⟨rfl, rfl⟩, run_lift_ok.2 ⟨ht, rfl⟩⟩
    rw [Container.writeBaseProcedures, run_bind_of_ok hrun, forEachProcedure_eq hp.base]
  · obtain ⟨y, d, hfor, ⟨l, o, linkType, hl, ho, hcon⟩, rfl⟩ := (hp.built e he).callsMade c hc
    obtain ⟨o1, ho1, hs1⟩ := hl.procedure' ho
    obtain ⟨o2, ho2, hs2⟩ := hp.procedure ho1
    obtain ⟨o3, hstored, hs3⟩ := hp.stored ho1
    refine ⟨y, o2, hfor, (mem_proceduresOf hp.base).2 ho2, fun filters mapSources t file t' hfile => ?_⟩
    refine hcon.agrees ?_ (hs1.symm.trans hs2) (by decide) hfile
    exact (hstored.typed.sameBut hs3 (by decide)).sameBut hs1 (by decide)

def tracedCall (input output : Value) : Value :=
  .object [("sql", .list [.text "CALL P(\"#D\", \"#M\")"]), ("function", .list []),
    ("input_tables", .list [input]), ("output_tables", .list [output]),
    ("output_vars", .list [.object [("name", .text "#V"), ("select", .text "SELECT V"), ("data_type", .text "INTEGER")]])]

def tracedSession : Session where
  settings := Settings.builtin ++ [(Setting.mergeStrategy, .int mergePartitions),
    (Setting.groupStrategy, .int functionalGrouping), (Setting.layers, .object []),
    (Setting.entityContext, .text "c"), (Setting.schema, .text "S"), (Setting.sourceMapping, .object [])]
  trace := .object [("RandomForestClassifier", .object
    [("Fit", tracedCall (tracedTable "#D" "SELECT * FROM S.D") (tracedTable "#M" "SELECT * FROM #M"))])]

theorem tracedCall_typed (n s n' s' : String) : TypedCall (tracedCall (tracedTable n s) (tracedTable n' s')) := by
  refine ⟨?_, ?_, ?_, ?_⟩ <;> rintro v ⟨rfl⟩ <;> refine allLack_list.2 fun t ht => ?_ <;>
    obtain rfl := List.mem_singleton.1 ht <;> rintro _ ⟨rfl⟩ <;> rfl

theorem tracedSession_typed : TypedTrace tracedSession.trace := by
  rintro ⟨a, f⟩ call h
  obtain ⟨functions, hfunctions, h⟩ := Option.bind_eq_some_iff.1 h
  obtain ⟨-, rfl⟩ := Prod.mk.inj (List.mem_singleton.1 (Fields.mem_of_lookup hfunctions))
  obtain ⟨call', hcall, h⟩ := Option.bind_eq_some_iff.1 h
  obtain ⟨-, rfl⟩ := Prod.mk.inj (List.mem_singleton.1 (Fields.mem_of_lookup hcall))
  cases h
  exact tracedCall_typed ..

/-- A call of the sample has an input, an output table and a variable. -/
theorem processTrace_calls_agree_sample : ∃ s' layers relations elements, processTrace true false true tracedSession = .ok () s' ∧
      s'.settings.entry Setting.layers = .ok layers ∧ CallsAgree layers relations elements ∧
      elements.length = 1 := by
  have hone : succeedsWith (fun _ s' => (s'.settings.entry Setting.layers).toOption.map
      (fun layers => (layers.listAt consumptionKey).length) == some 1)
      (processTrace true false true tracedSession) = true := by decide +kernel
  obtain ⟨_, s', h, hone⟩ := exists_of_succeedsWith hone
  rcases processTrace_calls_agree h rfl tracedSession_typed with ⟨hempty, -⟩ | ⟨layers, relations, elements, hl, hc⟩
  · exact absurd hempty (by decide)
  · refine ⟨s', layers, relations, elements, h, hl, hc, ?_⟩
    rw [hl] at hone
    have hget : layers.get consumptionKey .null = _ := Value.get_of_entry hc.listed .null
    simpa [Value.listAt, hget, Except.toOption, Value.toList] using hone

end TraceArtifacts
