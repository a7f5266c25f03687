import TraceArtifacts.Proofs.Consumption

/-!
# Proofs: what processing a trace stores

Processing starts from layers with nothing in them and stores a record for each call that has statements, under its algorithm and
its function (`Filled`).
-/

namespace TraceArtifacts

variable {P : BaseParts → Prop} {b : BaseParts} {logStatements own raiseOnError : Bool} {x : ProcedureName} {s s' t : Session} {u : Unit}
  {T : Value → Prop} {algo function layers layers' o v : Value}

/-! ## Changes of records -/

theorem ensureRecord_ok {k : String} {fs : Fields} (h : ensureRecord (.text k) (.object fs) = .ok u v) :
    ∃ fs' w, v = .object fs' ∧ fs'.lookup k = some w ∧ (fs.lookup k = some w ∧ fs' = fs ∨
        fs.lookup k = none ∧ w = .object [] ∧ fs' = Fields.set k (.object []) fs) ∧
      ∀ x, Fields.set k x fs' = Fields.set k x fs := by
  simp only [ensureRecord, run_parts] at h
  obtain ⟨b, hb, h⟩ := h
  obtain rfl := ok_unique (Value.has_object fs k) hb
  cases hk : fs.lookup k with
  | none =>
    simp only [hk, Option.isSome_none, Bool.not_false, if_true, run_parts, run_set_ok] at h
    obtain ⟨w, hw, rfl⟩ := h
    cases hw
    exact ⟨_, _, rfl, Fields.lookup_set_self .., .inr ⟨rfl, rfl, rfl⟩, fun x => Fields.set_set ..⟩
  | some w =>
    simp only [hk, Option.isSome_some, if_not_true, run_pure_ok] at h
    obtain ⟨-, rfl⟩ := h
    exact ⟨fs, w, rfl, hk, .inl ⟨rfl, rfl⟩, fun x => rfl⟩

theorem under_ok {k : String} {fs : Fields} {c : Change α} {a : α} (h : Change.under (.text k) c (.object fs) = .ok a v) :
    ∃ w w', fs.lookup k = some w ∧ c w = .ok a w' ∧ v = .object (Fields.set k w' fs) := by
  simp only [Change.under, run_parts] at h
  obtain ⟨w, hw, h⟩ := h
  simp only [Value.item_object, Value.need_ok] at hw
  cases hc : c w with
  | error e w' =>
    simp only [hc, run_bind_ok, run_throw_ok, and_false, exists_false] at h
  | ok b w' =>
    simp only [hc, run_parts, run_set_ok, run_pure_ok] at h
    obtain ⟨x, hx, _, _, rfl, rfl, rfl⟩ := h
    exact ⟨w, w', hw, hc, (Except.ok.inj hx).symm⟩

/-! ## The base layer while it is filled -/

def storedProcedure (b : BaseParts) (name category : String) : Value :=
  .object [("sql", .ofTexts b.statements), ("input_tables", b.inputTables),
    ("output_tables", b.outputTables), ("output_vars", b.outputVars),
    ("synonyms", .list (b.synonyms.map Synonym.toValue)),
    ("metadata", .object [("procedure_name", .text name), ("algo_function_cat", .text category)])]

def Stored (P : BaseParts → Prop) (o : Value) : Prop :=
  ∃ b name category, P b ∧ o = storedProcedure b name category

/-- The rows of a base layer that holds stored procedures only. -/
structure FilledRows (P : BaseParts → Prop) (rows : Fields) : Prop where
  nodup : (rows.map Prod.fst).Nodup
  row : ∀ p ∈ rows, ∃ fns : Fields, p.2 = .object fns ∧ (fns.map Prod.fst).Nodup ∧ ∀ q ∈ fns, Stored P q.2

def Filled (P : BaseParts → Prop) (layers : Value) : Prop :=
  layers = .object [] ∨ ∃ rows, layers = .object [(baseKey, .object rows)] ∧ FilledRows P rows

theorem FilledRows.set {rows fns : Fields} (h : FilledRows P rows)
    (hrow : rows.lookup a = some (.object fns) ∨ (rows.lookup a = none ∧ fns = [])) {f : String} (ho : Stored P o) :
    FilledRows P (Fields.set a (.object (Fields.set f o fns)) rows) := by
  have hfns : (fns.map Prod.fst).Nodup ∧ ∀ q ∈ fns, Stored P q.2 := by
    rcases hrow with hrow | ⟨-, rfl⟩
    · obtain ⟨fns', he, hnd, hall⟩ := h.row _ (Fields.mem_of_lookup hrow)
      cases he
      exact ⟨hnd, hall⟩
    · exact ⟨List.nodup_nil, fun q hq => by simp at hq⟩
  refine ⟨Fields.nodup_keys_set _ _ h.nodup, fun p hp => ?_⟩
  rcases Fields.mem_set hp with rfl | hp
  · refine ⟨_, rfl, Fields.nodup_keys_set _ _ hfns.1, fun q hq => ?_⟩
    rcases Fields.mem_set hq with rfl | hq
    · exact ho
    · exact hfns.2 q hq
  · exact h.row p hp

theorem putInto_stored (hb : P b) {name category : String} {o' : Value} (ho : o = .object [] ∨ Stored P o)
    (h : b.putInto (.object [("procedure_name", .text name), ("algo_function_cat", .text category)]) o = .ok o') : Stored P o' := by
  rcases ho with rfl | ⟨b', name', category', -, rfl⟩
  · exact ⟨b, name, category, hb, (Except.ok.inj h).symm⟩
  · exact ⟨b, name, category, hb, (Except.ok.inj h).symm⟩

theorem metadataOf_ok {metadata : Value} (h : metadataOf algo function = .ok metadata) : ∃ name category, metadata =
      .object [("procedure_name", .text name), ("algo_function_cat", .text category)] := by
  simp only [metadataOf, bind_ok, pure_ok] at h
  obtain ⟨_, -, _, -, rfl⟩ := h
  exact ⟨_, _, rfl⟩

theorem storeBase_ok (h : storeBase (.text x.1) (.text x.2) b layers = .ok u layers') (hl : layers = .object [] ∨ IsBaseLayer layers) :
    ∃ (fs rows fns : Fields) (metadata o : Value), layers = .object fs ∧
      (fs.lookup baseKey = some (.object rows) ∨ fs.lookup baseKey = none ∧ rows = []) ∧
      (rows.lookup x.1 = some (.object fns) ∨ rows.lookup x.1 = none ∧ fns = []) ∧
      metadataOf (.text x.1) (.text x.2) = .ok metadata ∧
      b.putInto metadata ((fns.lookup x.2).getD (.object [])) = .ok o ∧
      layers' = .object (Fields.set baseKey (.object (Fields.set x.1 (.object (Fields.set x.2 o fns)) rows)) fs) := by
  simp only [storeBase, run_parts] at h
  obtain ⟨_, l1, h1, _, l2, h2, metadata, hm, h3⟩ := h
  obtain ⟨fs, rfl, hobjects⟩ : ∃ fs, layers = .object fs ∧ ∀ base, fs.lookup baseKey = some base →
      ∃ rows : Fields, base = .object rows ∧ ∀ p ∈ rows, ∃ fns : Fields, p.2 = .object fns := by
    rcases hl with rfl | ⟨rows, hrows⟩
    · exact ⟨[], rfl, fun base hbase => by cases hbase⟩
    · obtain ⟨fs, rfl, hbase⟩ := hrows.isRecord
      refine ⟨fs, rfl, fun base hbase' => ⟨rows, ?_, fun p hp => ?_⟩⟩
      · exact Option.mem_unique hbase' hbase
      · obtain ⟨fns, hfns, -⟩ := hrows.row p hp
        exact ⟨fns, hfns⟩
  -- the base layer is there from now on
  obtain ⟨fs1, base, rfl, hbase1, hbase, hset⟩ := ensureRecord_ok h1
  obtain ⟨rows, rfl, hrows, hrow⟩ : ∃ rows : Fields, base = .object rows ∧
      (fs.lookup baseKey = some (.object rows) ∨ fs.lookup baseKey = none ∧ rows = []) ∧
      ∀ p ∈ rows, ∃ fns : Fields, p.2 = .object fns := by
    rcases hbase with ⟨hbase, -⟩ | ⟨hbase, rfl, -⟩
    · obtain ⟨rows, rfl, hrow⟩ := hobjects base hbase
      exact ⟨rows, rfl, .inl hbase, hrow⟩
    · exact ⟨[], rfl, .inr ⟨hbase, rfl⟩, fun p hp => by simp at hp⟩
  -- so are the row and the procedure
  obtain ⟨w, rows1, hw, h2, rfl⟩ := under_ok h2
  obtain rfl := Option.mem_unique hbase1 hw
  obtain ⟨_, v, hv, h2⟩ := run_bind_ok.1 h2
  obtain ⟨rows2, row, rfl, hrow2, hrow', hset'⟩ := ensureRecord_ok hv
  obtain ⟨w, fns1, hw, h2, rfl⟩ := under_ok h2
  obtain rfl := Option.mem_unique hrow2 hw
  obtain ⟨fns, rfl, hfns⟩ : ∃ fns, row = .object fns ∧ (rows.lookup x.1 = some (.object fns) ∨ rows.lookup x.1 = none ∧ fns = []) := by
    rcases hrow' with ⟨hrow', -⟩ | ⟨hrow', rfl, -⟩
    · obtain ⟨fns, hfns⟩ := hrow _ (Fields.mem_of_lookup hrow')
      obtain rfl : row = .object fns := hfns
      exact ⟨fns, rfl, .inl hrow'⟩
    · exact ⟨[], rfl, .inr ⟨hrow', rfl⟩⟩
  obtain ⟨fns2, o, rfl, ho2, ho, hset2⟩ := ensureRecord_ok h2
  -- the procedure gets its entries
  obtain ⟨w, rows3, hw, h3, rfl⟩ := under_ok h3
  rw [Fields.lookup_set_self] at hw
  cases hw
  obtain ⟨w, fns3, hw, h3, rfl⟩ := under_ok h3
  rw [hset', Fields.lookup_set_self] at hw
  cases hw
  obtain ⟨w, o', hw, h3, rfl⟩ := under_ok h3
  obtain rfl := Option.mem_unique ho2 hw
  simp only [Change.apply, run_parts, run_set_ok] at h3
  obtain ⟨w, hput, rfl⟩ := h3
  have hold : (fns.lookup x.2).getD (.object []) = o := by
    rcases ho with ⟨ho, -⟩ | ⟨ho, rfl, -⟩ <;> rw [ho] <;> rfl
  refine ⟨fs, rows, fns, metadata, w, rfl, hrows, hfns, hm, by rw [hold]; exact hput, ?_⟩
  rw [hset', Fields.set_set, Fields.set_set, hset2, hset]

theorem FilledRows.hasRows {rows : Fields} (h : FilledRows P rows) : HasRows (.object [(baseKey, .object rows)]) rows := by
  refine ⟨rfl, h.nodup, fun p hp => ?_⟩
  obtain ⟨fns, hfns, hnd, -⟩ := h.row p hp
  exact ⟨fns, hfns, hnd⟩

theorem Filled.isBaseLayer (h : Filled P layers) : layers = .object [] ∨ IsBaseLayer layers := by
  refine h.imp_right ?_
  rintro ⟨rows, rfl, hrows⟩
  exact ⟨rows, hrows.hasRows⟩

theorem storeBase_filled (hb : P b) (h : storeBase (.text x.1) (.text x.2) b layers = .ok u layers') (hl : Filled P layers) :
    Filled P layers' := by
  obtain ⟨fs, rows, fns, metadata, o, rfl, hbase, hfns, hm, hput, rfl⟩ := storeBase_ok h hl.isBaseLayer
  obtain ⟨name, category, rfl⟩ := metadataOf_ok hm
  obtain ⟨hrows, hset⟩ : FilledRows P rows ∧ ∀ v, Fields.set baseKey v fs = [(baseKey, v)] := by
    rcases hl with hl | ⟨rows', hl, hrows⟩
    · cases hl
      rcases hbase with hbase | ⟨-, rfl⟩
      · cases hbase
      · exact ⟨⟨List.nodup_nil, fun p hp => by simp at hp⟩, fun v => rfl⟩
    · cases hl
      rcases hbase with hbase | ⟨hbase, -⟩
      · obtain rfl : rows' = rows := by simpa using hbase
        exact ⟨hrows, fun v => by simp [Fields.set]⟩
      · simp at hbase
  have hold : (fns.lookup x.2).getD (.object []) = .object [] ∨ Stored P ((fns.lookup x.2).getD (.object [])) := by
    cases ho : fns.lookup x.2 with
    | none => exact .inl rfl
    | some o' =>
      rcases hfns with hfns | ⟨-, rfl⟩
      · obtain ⟨fns', he, -, hall⟩ := hrows.row _ (Fields.mem_of_lookup hfns)
        cases he
        exact .inr (hall _ (Fields.mem_of_lookup ho))
      · cases ho
  exact .inr ⟨_, congrArg Value.object (hset _), hrows.set hfns (putInto_stored hb hold hput)⟩

/-! ## One call -/

theorem buildBase_ok {settings : Settings} {functions functions' : Value} {p : Prepared} :
    buildBase settings algo function p functions = .ok b functions' ↔ ∃ inputs functionSynonyms inputSynonyms,
      extendedIf (extendTables settings algo function p.statements) p.inputTables = .ok inputs ∧
      extendedIf (extendTables settings algo function p.statements) p.outputTables = .ok b.outputTables ∧
      extendedIf (extendVariables algo function) p.outputVars = .ok b.outputVars ∧
      Synonym.noteAll Synonym.forFunction functions = .ok functionSynonyms functions' ∧
      Synonym.noteAll Synonym.forInput inputs = .ok inputSynonyms b.inputTables ∧ b.synonyms = functionSynonyms ++ inputSynonyms ∧
      baseStatements b.inputTables b.outputTables b.outputVars b.synonyms p.statements = .ok b.statements := by
  simp only [buildBase, run_bind_ok, run_lift_ok]
  constructor
  · rintro ⟨inputs, _, ⟨hin, rfl⟩, outputs, _, ⟨hout, rfl⟩, vars, _, ⟨hvars, rfl⟩, synonyms, w, hfunctions, h⟩
    cases hn : Synonym.noteAll Synonym.forInput inputs with
    | error e v =>
      rw [hn] at h
      exact (run_throw_ok.1 h).elim
    | ok inputSynonyms v =>
      simp only [hn, run_parts, run_pure_ok] at h
      obtain ⟨statements, hstatements, rfl, rfl⟩ := h
      exact ⟨inputs, synonyms, inputSynonyms, hin, hout, hvars, hfunctions, hn, rfl, hstatements⟩
  · rintro ⟨inputs, xs, ys, hin, hout, hvars, hfunctions, hn, hsynonyms, hstatements⟩
    refine ⟨inputs, _, ⟨hin, rfl⟩, b.outputTables, _, ⟨hout, rfl⟩, b.outputVars, _, ⟨hvars, rfl⟩, xs, _, hfunctions, ?_⟩
    simp only [hn, ← hsynonyms, run_bind_ok, run_lift_ok, run_pure_ok]
    exact ⟨b.statements, _, ⟨hstatements, rfl⟩, rfl, rfl⟩
theorem generateBase_ok {settings : Settings} {p : Prepared} {w w' : BaseWork} (h : generateBase settings algo function p w = .ok u w') :
    ∃ b, buildBase settings algo function p w.functions = .ok b w'.functions ∧ storeBase algo function b w.layers = .ok () w'.layers := by
  simp only [generateBase, run_get_bind] at h
  cases hb : buildBase settings algo function p w.functions with
  | error e functions =>
    simp only [hb, run_bind_ok, run_throw_ok, and_false, exists_false] at h
  | ok b functions =>
    cases hs : storeBase algo function b w.layers with
    | error e layers =>
      simp only [hb, hs, run_bind_ok, run_throw_ok, and_false, exists_false] at h
    | ok u layers =>
      simp only [hb, hs, run_set_ok] at h
      subst h
      exact ⟨b, rfl, hs⟩

theorem Job.onTrace_ok {c : Change α} {a : α} (h : Job.onTrace c s = .ok a s') :
    ∃ trace, c s.trace = .ok a trace ∧ s' = { s with trace } := by
  simp only [Job.onTrace, run_get_bind] at h
  cases hc : c s.trace with
  | error e trace =>
    simp only [hc, run_bind_ok, run_throw_ok, and_false, exists_false] at h
  | ok b trace =>
    simp only [hc, run_bind_ok, run_set_ok, run_pure_ok] at h
    obtain ⟨_, _, rfl, rfl, rfl⟩ := h
    exact ⟨trace, rfl, rfl⟩

def callPlace (x : ProcedureName) : Place := [.key x.1, .key x.2]

theorem processCall_run (h : processCall own x.1 x.2 s = .ok u s') : ∃ p trace layers b functions layers' shared,
      Change.within (callPlace x) prepare s.trace = .ok p trace ∧
      s.settings.entry Setting.layers = .ok layers ∧
      buildBase s.settings (.text x.1) (.text x.2) p p.functions = .ok b functions ∧
      storeBase (.text x.1) (.text x.2) b layers = .ok () layers' ∧
      s' = { s with trace := trace.putAt (callPlace x ++ [.key "function"]) functions
                    settings := s.settings.set Setting.layers layers'
                    sharedOutputs := shared } := by
  simp only [processCall, run_parts, Job.layers, Job.setting] at h
  obtain ⟨p, t, ht, layers, hl, h⟩ := h
  obtain ⟨trace, hp, rfl⟩ := Job.onTrace_ok ht
  cases hg : generateBase s.settings (.text x.1) (.text x.2) p { functions := p.functions, layers } with
  | error e w =>
    simp only [hg, run_bind_ok, run_throw_ok, and_false, exists_false] at h
  | ok v w =>
    simp only [hg, Job.keepLayers, noteShared, run_bind_ok, run_modify_ok] at h
    obtain ⟨_, _, ⟨_, _, rfl, rfl⟩, rfl⟩ := h
    obtain ⟨b, hb, hs⟩ := generateBase_ok hg
    exact ⟨p, trace, layers, b, w.functions, w.layers, _, hp, hl, hb, hs, rfl⟩

theorem processCall_ok (h : processCall own x.1 x.2 s = .ok u s') : ∃ p trace layers b functions layers',
      Change.within (callPlace x) prepare s.trace = .ok p trace ∧
      s.settings.entry Setting.layers = .ok layers ∧
      buildBase s.settings (.text x.1) (.text x.2) p p.functions = .ok b functions ∧
      storeBase (.text x.1) (.text x.2) b layers = .ok () layers' ∧
      s'.trace = trace.putAt (callPlace x ++ [.key "function"]) functions ∧
      s'.settings = s.settings.set Setting.layers layers' := by
  obtain ⟨p, trace, layers, b, functions, layers', shared, hp, hl, hb, hs, rfl⟩ := processCall_run h
  exact ⟨p, trace, layers, b, functions, layers', hp, hl, hb, hs, rfl, rfl⟩

/-! ## All calls -/

theorem processTrace_cases (h : processTrace raiseOnError logStatements own s = .ok u s') :
    (s.trace.isTruthy = false ∧ s' = s) ∨ (s.trace.isTruthy = true ∧ ∃ t0 t, (t0 = s ∨ ∃ text, Job.report "debug" text s = .ok () t0) ∧
        processAlgos raiseOnError own s.trace t0 = .ok () t ∧ fillConsumption t = .ok () s') := by
  simp only [processTrace, run_parts, Job.layers, Job.setting] at h
  obtain ⟨_, -, h⟩ := h
  cases ht : s.trace.isTruthy with
  | false =>
    simp only [ht, Bool.not_false, if_true, run_pure_ok] at h
    exact .inl ⟨rfl, h.2.symm⟩
  | true =>
    refine .inr ⟨rfl, ?_⟩
    simp only [ht, if_not_true] at h
    cases logStatements with
    | false =>
      obtain ⟨_, t, halgos, hfill⟩ := run_bind_ok.1 h
      exact ⟨s, t, .inl rfl, halgos, hfill⟩
    | true =>
      simp only [if_true] at h
      obtain ⟨text, -, h⟩ := run_lift_bind_ok.1 h
      obtain ⟨_, t0, hlog, h⟩ := run_bind_ok.1 h
      obtain ⟨_, t, halgos, hfill⟩ := run_bind_ok.1 h
      exact ⟨t0, t, .inr ⟨text, hlog⟩, halgos, hfill⟩

section Calls

variable {J : Session → Prop} (hcall : ∀ own (x : ProcedureName), Keeps J (processCall own x.1 x.2))
  (hreport : ∀ level text, Keeps J (Job.report level text))
include hcall hreport

theorem keeps_processAlgo (raiseOnError own : Bool) (algo : String) : Keeps J (processAlgo raiseOnError own algo) := by
  refine keeps_get.bind fun s => .lift fun functions _ => .lift fun fs _ => ?_
  refine Keeps.forM fun function _ => keeps_get.bind fun t => .lift fun calls _ =>
    .lift fun call _ => ?_
  by_cases hc : call.isTruthy = true
  · rw [if_pos hc]
    refine .lift fun b _ => ?_
    cases b with
    | true => exact hcall own (algo, function.textOrEmpty)
    | false =>
      cases raiseOnError with
      | true => exact keeps_throw _
      | false => exact hreport _ _
  · rw [if_neg hc]
    exact keeps_pure _

theorem keeps_processAlgos (raiseOnError own : Bool) (trace : Value) : Keeps J (processAlgos raiseOnError own trace) := by
  refine .lift fun algos _ => Keeps.forM fun algo _ => .lift fun name _ => ?_
  by_cases hn : isSupported name = true
  · rw [if_pos hn]
    exact keeps_processAlgo hcall hreport _ _ _
  · rw [if_neg hn]
    exact keeps_pure _

theorem processTrace_ok (h : processTrace raiseOnError logStatements own s = .ok u s') (hs : J s) : (s.trace.isTruthy = false ∧ s' = s) ∨
      (s.trace.isTruthy = true ∧ ∃ t, J t ∧ fillConsumption t = .ok () s') := by
  refine (processTrace_cases h).imp_right ?_
  rintro ⟨htruthy, t0, t, ht0, halgos, hfill⟩
  refine ⟨htruthy, t, keeps_processAlgos hcall hreport _ _ _ halgos ?_, hfill⟩
  rcases ht0 with rfl | ⟨text, ht0⟩
  · exact hs
  · exact hreport _ _ ht0 hs

end Calls

/-! ## The base layer that the consumption layer is made from -/

def StoresAs (T : Value → Prop) (P : BaseParts → Prop) : Prop :=
  ∀ {x : ProcedureName} {settings : Settings} {trace trace' functions : Value} {p : Prepared} {b : BaseParts},
    T trace → Change.within (callPlace x) prepare trace = .ok p trace' →
    buildBase settings (.text x.1) (.text x.2) p p.functions = .ok b functions →
    P b ∧ T (trace'.putAt (callPlace x ++ [.key "function"]) functions)

theorem storesAs_trivial : StoresAs (fun _ => True) (fun _ => True) := fun _ _ _ => ⟨trivial, trivial⟩

/-- How far processing has come. -/
structure Progress (T : Value → Prop) (P : BaseParts → Prop) (s t : Session) : Prop where
  settings : ∀ k, k ≠ Setting.layers → t.settings.entry k = s.settings.entry k
  layers : ∃ layers, t.settings.entry Setting.layers = .ok layers ∧ Filled P layers
  trace : T t.trace

theorem keeps_processCall (hT : StoresAs T P) (s : Session) (own : Bool) (x : ProcedureName) :
    Keeps (Progress T P s) (processCall own x.1 x.2) := by
  intro t u t' h hI
  obtain ⟨p, trace, layers, b, functions, layers', hp, hl, hb, hs, ht, hst⟩ := processCall_ok h
  obtain ⟨hP, hT'⟩ := hT hI.trace hp hb
  obtain ⟨l, hl', hfilled⟩ := hI.layers
  obtain rfl := ok_unique hl hl'
  refine ⟨fun k hk => ?_, ⟨layers', ?_, storeBase_filled hP hs hfilled⟩, ?_⟩
  · rw [hst, Settings.entry_set_ne hk, hI.settings k hk]
  · rw [hst, Settings.entry_set_self]
  · rw [ht]
    exact hT'

theorem keeps_report (s : Session) (level text : String) : Keeps (Progress T P s) (Job.report level text) := by
  intro t u t' h hI
  cases h
  exact ⟨hI.settings, hI.layers, hI.trace⟩

theorem Filled.fresh {base : Value} (h : Filled P layers) (hbase : layers.entry baseKey = .ok base) :
    FreshBase layers ∧ ∀ {x o}, procedureAt? layers x = some o → Stored P o := by
  rcases h with rfl | ⟨rows, rfl, hrows⟩
  · cases hbase
  have hr := hrows.hasRows
  have hstored : ∀ p ∈ proceduresOf (.object [(baseKey, .object rows)]), Stored P p.2.2 := by
    intro p hp
    rw [hr.procedures] at hp
    obtain ⟨q, hq, hp⟩ := List.mem_flatMap.1 hp
    obtain ⟨fns, hfns, -, hall⟩ := hrows.row q hq
    rw [rowProcedures, hfns] at hp
    obtain ⟨f, hf, rfl⟩ := List.mem_map.1 hp
    exact hall f hf
  refine ⟨freshBase_of_rows hr fun p hp => ?_, fun ho => ?_⟩
  · obtain ⟨b, name, category, -, ho⟩ := hstored p hp
    exact ⟨_, ho, rfl⟩
  · exact hstored _ ((mem_proceduresOf ⟨rows, hr⟩).2 ho)

theorem fillConsumption_ok (h : fillConsumption s = .ok u s') :
    ∃ es t l l', relateAndBuild s = .ok es t ∧ t.settings.entry Setting.layers = .ok l ∧
      l.setEntry consumptionKey (.list (es.map Element.toValue)) = .ok l' ∧
      s' = { t with settings := t.settings.set Setting.layers l'
                    shownGroups := es.map Element.origin } := by
  simp only [fillConsumption, run_parts, Job.layers, Job.setting, Job.keepLayers, run_modify_ok] at h
  obtain ⟨es, t, ht, l, hl, l', hl', _, _, rfl, rfl⟩ := h
  exact ⟨es, t, l, l', ht, hl, hl', rfl⟩

theorem relatedTypes_base (layers : Value) : (relatedTypes layers).at? [.key baseKey] = layers.at? [.key baseKey] := by
  have h : Place.Apart [.key relationsKey] [.key baseKey] := .inl (by decide)
  exact Value.at?_modifyAt_of_apart _ h layers

/-- How the consumption layer of a fresh base layer comes about: relations are noted and procedures are grouped, which
keeps them as they are but for their groups, and elements are built from that. -/
structure Made (layers grouped final : Value) (relations : List Relation) (settings : Settings)
    (elements : List Element) : Prop where
  related : buildRelations layers = .ok relations
  noted : HasRelations grouped relations
  regrouped : ∃ l g, l.at? [.key baseKey] = layers.at? [.key baseKey] ∧ Regrouped l g ∧
    grouped.at? [.key baseKey] = g.at? [.key baseKey] ∧ Alike ["groups"] l grouped
  built : ∃ b : BuildState, buildConsumption { settings, layers := grouped } = .ok elements b ∧
    final.at? [.key baseKey] = b.layers.at? [.key baseKey]
  final : final.entry consumptionKey = .ok (.list (elements.map Element.toValue))

theorem fillConsumption_kept (h : fillConsumption t = .ok u s') (hl : t.settings.entry Setting.layers = .ok layers)
    (hf : FreshBase layers) :
    ∃ grouped final relations settings elements, Made layers grouped final relations settings elements ∧
      (∀ k, k ≠ Setting.layers → Settings.entry settings k = t.settings.entry k) ∧
      s'.settings.entry Setting.layers = .ok final ∧
      ∀ b, buildConsumption { settings, layers := grouped } = .ok elements b →
        ∀ k, k ≠ Setting.layers → s'.settings.entry k = b.settings.entry k := by
  obtain ⟨es, t1, l1, final, hrun, hl1, hfinal, hs'⟩ := fillConsumption_ok h
  obtain ⟨relations, l, g, grouped, st, b, hrel, hbase, hre, hg, halike, hhas, hst, hb, ht1⟩ := relateAndBuild_grouped hrun hl hf
  obtain rfl : relatedTypes b.layers = l1 := by
    rw [ht1, Settings.entry_set_self] at hl1
    exact Except.ok.inj hl1
  refine ⟨grouped, final, relations, st, es, ⟨hrel, hhas, ⟨l, g, hbase, hre, hg, halike⟩, ⟨b, hb, ?_⟩, ?_⟩, hst, ?_, ?_⟩
  · rw [Value.at?_setEntry_ne hfinal (by decide), relatedTypes_base]
  · exact Value.entry_eq_ok_iff.2 (Value.at?_setEntry_self hfinal)
  · rw [hs', Settings.entry_set_self]
  · intro b' hb' k hk
    obtain ⟨-, rfl⟩ := EStateM.Result.ok.inj (hb.symm.trans hb')
    have hset : s'.settings = t1.settings.set Setting.layers final := by rw [hs']
    rw [hset, ht1]
    exact (Settings.entry_set_ne hk _ _).trans (Settings.entry_set_ne hk _ _)

section MadeFrom

variable {grouped final : Value} {relations : List Relation} {settings : Settings} {elements : List Element}
  (hm : Made layers grouped final relations settings elements)
include hm

theorem Made.fresh (hf : FreshBase layers) : FreshBase grouped := by
  obtain ⟨l, g, hbase, -, -, halike⟩ := hm.regrouped
  exact (hf.congr hbase).alike halike

theorem Made.procedure (ho : procedureAt? grouped x = some o) : ∃ o', procedureAt? layers x = some o' ∧ o'.SameBut ["groups"] o := by
  obtain ⟨l, g, hbase, -, -, halike⟩ := hm.regrouped
  obtain ⟨o', ho', hs⟩ := halike.procedure' ho
  exact ⟨o', by rw [← procedureAt?_congr hbase]; exact ho', hs⟩

theorem Made.relations_grouped (hf : FreshBase layers) : buildRelations grouped = .ok relations := by
  obtain ⟨l, g, hbase, -, -, halike⟩ := hm.regrouped
  rw [halike.buildRelations_eq (by decide), buildRelations_congr hf.base hbase, hm.related]

end MadeFrom

theorem processTrace_fresh (hT : StoresAs T P) (h : processTrace raiseOnError logStatements own s = .ok u s')
    (hl : s.settings.entry Setting.layers = .ok (.object [])) (ht : T s.trace) :
    (s.trace.isTruthy = false ∧ s' = s) ∨ ∃ t layers, (∀ k, k ≠ Setting.layers → t.settings.entry k = s.settings.entry k) ∧
      t.settings.entry Setting.layers = .ok layers ∧ FreshBase layers ∧
      (∀ {x o}, procedureAt? layers x = some o → Stored P o) ∧ fillConsumption t = .ok () s' := by
  have hstart : Progress T P s s := ⟨fun _ _ => rfl, ⟨_, hl, .inl rfl⟩, ht⟩
  rcases processTrace_ok (keeps_processCall hT s) (keeps_report s) h hstart with hs | ⟨-, t, hI, hfill⟩
  · exact .inl hs
  obtain ⟨layers, hlayers, hfilled⟩ := hI.layers
  obtain ⟨es, t', l, l', hrel, -⟩ := fillConsumption_ok hfill
  obtain ⟨relations, -, -, -, -, hrelations, -⟩ := relateAndBuild_ok hrel hlayers
  obtain ⟨base, hbase, -⟩ := bind_ok.1 hrelations
  obtain ⟨hfresh, hstored⟩ := hfilled.fresh hbase
  exact .inr ⟨t, layers, hI.settings, hlayers, hfresh, hstored, hfill⟩

def tracedTable (name select : String) : Value :=
  .object [("name", .text name), ("select", .text select), ("table_type", .text "table (\"ID\" INTEGER)")]

end TraceArtifacts
