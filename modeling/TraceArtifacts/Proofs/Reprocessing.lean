import TraceArtifacts.Proofs.Preparing

/-!
# Proofs: processing calls more than once

The calls that processing makes procedures of are told by the trace (`IsCalled`), and processing changes them but not which ones
there are.
-/

namespace TraceArtifacts

variable {own raiseOnError : Bool} {x : ProcedureName} {s s' : Session} {algo key : String} {u : Unit}
  {function functions layers o o' trace v : Value}

/-! ## Storing -/

/-- Storing a procedure puts its parts into what is there under its name, and leaves all else as it is. -/
structure StoredInto (x : ProcedureName) (b : BaseParts) (layers layers' : Value) (o : Value) : Prop where
  base : IsBaseLayer layers'
  procedure : procedureAt? layers' x = some o
  put : ∃ metadata, metadataOf (.text x.1) (.text x.2) = .ok metadata ∧
    b.putInto metadata ((procedureAt? layers x).getD (.object [])) = .ok o
  others : ∀ y, y ≠ x → procedureAt? layers' y = procedureAt? layers y
  entries : ∀ k, k ≠ baseKey → layers'.at? [.key k] = layers.at? [.key k]

theorem procedureAt?_of_rows {fs : Fields} {base : Option Value} (hb : fs.lookup baseKey = base) (x : ProcedureName) :
    procedureAt? (.object fs) x = base.bind (Value.at? [.key x.1, .key x.2]) := by
  rw [procedureAt?, procedurePlace, Value.at?_key, hb]

theorem storeBase_into {b : BaseParts} {layers' : Value} (h : storeBase (.text x.1) (.text x.2) b layers = .ok u layers')
    (hl : layers = .object [] ∨ IsBaseLayer layers) : ∃ o, StoredInto x b layers layers' o := by
  obtain ⟨fs, rows, fns, metadata, o, rfl, hbase, hfns, hm, hput, rfl⟩ := storeBase_ok h hl
  -- a row that is not there holds nothing
  have hrow : ∀ y : ProcedureName, procedureAt? (.object fs) y = (rows.lookup y.1).bind (Value.at? [.key y.2]) := by
    intro y
    rcases hbase with hbase | ⟨hbase, rfl⟩ <;> rw [procedureAt?_of_rows hbase] <;> rfl
  have hfn : ∀ f, (rows.lookup x.1).bind (Value.at? [.key f]) = fns.lookup f := by
    intro f
    rcases hfns with hfns | ⟨hfns, rfl⟩ <;> rw [hfns]
    · show (fns.lookup f).bind (Value.at? []) = _
      cases fns.lookup f <;> rfl
    · rfl
  have hnow : ∀ y : ProcedureName, procedureAt? (.object (Fields.set baseKey
      (.object (Fields.set x.1 (.object (Fields.set x.2 o fns)) rows)) fs)) y =
        ((Fields.set x.1 (.object (Fields.set x.2 o fns)) rows).lookup y.1).bind (Value.at? [.key y.2]) := by
    intro y
    rw [procedureAt?_of_rows (Fields.lookup_set_self ..)]
    rfl
  refine ⟨o, ?_, ?_, ⟨metadata, hm, ?_⟩, fun y hy => ?_, fun k hk => ?_⟩
  · have hnodup : (rows.map Prod.fst).Nodup ∧ ∀ p ∈ rows, ∃ fns : Fields, p.2 = .object fns ∧ (fns.map Prod.fst).Nodup := by
      rcases hbase with hbase | ⟨-, rfl⟩
      · rcases hl with hl | ⟨rows', hrows⟩
        · cases hl
          cases hbase
        · have hsame := hrows.base
          rw [Value.at?_key, hbase] at hsame
          obtain rfl : rows = rows' := Value.object.inj (Option.some.inj hsame)
          exact ⟨hrows.nodup, hrows.row⟩
      · exact ⟨List.nodup_nil, fun p hp => by simp at hp⟩
    refine ⟨Fields.set x.1 (.object (Fields.set x.2 o fns)) rows, ?_, Fields.nodup_keys_set _ _ hnodup.1, fun p hp => ?_⟩
    · rw [Value.at?_key, Fields.lookup_set_self]
      rfl
    · rcases Fields.mem_set hp with rfl | hp
      · refine ⟨_, rfl, Fields.nodup_keys_set _ _ ?_⟩
        rcases hfns with hfns | ⟨-, rfl⟩
        · obtain ⟨fns', he, hnd⟩ := hnodup.2 _ (Fields.mem_of_lookup hfns)
          cases he
          exact hnd
        · exact List.nodup_nil
      · exact hnodup.2 p hp
  · rw [hnow, Fields.lookup_set_self]
    show ((Fields.set x.2 o fns).lookup x.2).bind (Value.at? []) = _
    rw [Fields.lookup_set_self]
    rfl
  · rw [hrow, hfn]
    exact hput
  · rw [hnow, hrow]
    by_cases h1 : y.1 = x.1
    · have h2 : y.2 ≠ x.2 := fun e => hy (Prod.ext h1 e)
      rw [h1, Fields.lookup_set_self, hfn]
      show ((Fields.set x.2 o fns).lookup y.2).bind (Value.at? []) = _
      rw [Fields.lookup_set_ne h2]
      cases fns.lookup y.2 <;> rfl
    · rw [Fields.lookup_set_ne h1]
  · rw [Value.at?_key, Value.at?_key, Fields.lookup_set_ne hk]

/-! ## The calls of a trace -/

def IsCalled (trace : Value) (x : ProcedureName) : Prop :=
  isSupported x.1 = true ∧ ∃ statements, trace.at? (callPlace x ++ [.key "sql"]) = some statements

theorem IsCalled.call (h : IsCalled trace x) :
    ∃ fs statements, trace.at? (callPlace x) = some (.object fs) ∧ fs.lookup "sql" = some statements := by
  obtain ⟨-, statements, h⟩ := h
  rw [Value.at?_append, Option.bind_eq_some_iff] at h
  obtain ⟨call, hcall, h⟩ := h
  obtain ⟨fs, rfl, hfs⟩ := Value.entry_ok.1 (Value.entry_eq_ok_iff.2 h)
  exact ⟨fs, statements, hcall, hfs⟩

theorem processCall_trace (h : processCall own x.1 x.2 s = .ok u s') :
    ∃ p call call' functions, s.trace.at? (callPlace x) = some call ∧ prepare call = .ok p call' ∧
      s'.trace.at? (callPlace x) = some (call'.putAt [.key "function"] functions) ∧
      ∀ y, y ≠ x → ∀ q, s'.trace.at? (callPlace y ++ q) = s.trace.at? (callPlace y ++ q) := by
  obtain ⟨p, trace, layers, b, functions, layers', hp, -, -, -, ht, -⟩ := processCall_ok h
  obtain ⟨call, call', hplace, hprep, rfl⟩ := Value.within_ok hp
  refine ⟨p, call, call', functions, hplace, hprep, ?_, fun y hy q => ?_⟩
  · rw [ht, Value.putAt, Value.at?_modifyAt_append, Value.at?_putAt_self _ hplace]
    rfl
  · have hapart := ((callPlace_apart hy).append q).symm
    rw [ht, Value.putAt, Value.at?_modifyAt_of_apart _ (hapart.append _), Value.putAt, Value.at?_modifyAt_of_apart _ hapart]

theorem isSome_processCall (h : processCall own x.1 x.2 s = .ok u s') (y : ProcedureName) :
    (s'.trace.at? (callPlace y)).isSome = (s.trace.at? (callPlace y)).isSome := by
  obtain ⟨p, call, call', functions, hcall, -, hnow, hothers⟩ := processCall_trace h
  by_cases hy : y = x
  · subst hy
    rw [hcall, hnow]
    rfl
  · have := hothers y hy []
    rw [List.append_nil] at this
    rw [this]

theorem text_of_callPlace {f : String} {ms : List Value} (hfunctions : trace.entry algo = .ok functions)
    (hms : functions.members = .ok ms) (hmem : function ∈ ms) (hsome : (trace.at? (callPlace (algo, f))).isSome = true) :
    ∃ g, function = .text g := by
  rw [callPlace, Value.at?_cons, Value.entry_eq_ok_iff.1 hfunctions] at hsome
  cases functions with
  | object fs =>
    cases hms
    obtain ⟨p, -, rfl⟩ := List.mem_map.1 hmem
    exact ⟨p.1, rfl⟩
  | _ => simp [Value.at?] at hsome

theorem statements_of_prepare {call call' : Value} {p : Prepared} (h : prepare call = .ok p call')
    (hb : call.has "sql" = .ok true) : ∃ statements, call.at? [.key "sql"] = some statements := by
  simp only [prepare, run_parts] at h
  obtain ⟨_, -, statements, hst, -⟩ := h
  rw [Value.entryOr, hb] at hst
  exact ⟨statements, Value.entry_eq_ok_iff.1 hst⟩

def processFunction (raiseOnError own : Bool) (algo : String) (function : Value) : Job Unit := do
  let call ← (← (← get).trace.entry algo).item function
  if call.isTruthy then
    if ← call.has "sql" then processCall own algo function.textOrEmpty
    else if raiseOnError then throw (.noStatements algo)
    else Job.report "error" ((Fault.noStatements algo).message.getD "")

theorem processAlgo_eq (raiseOnError own : Bool) (algo : String) : processAlgo raiseOnError own algo = (do
      let functions ← (← get).trace.entry algo
      (← functions.members).forM (processFunction raiseOnError own algo)) := rfl

theorem processFunction_ok {t t' : Session} (h : processFunction raiseOnError own algo function t = .ok u t') :
    ∃ fns call, t.trace.entry algo = .ok fns ∧ fns.item function = .ok call ∧
      (call.has "sql" = .ok true ∧ processCall own algo function.textOrEmpty t = .ok u t' ∨
        (call.isTruthy = false ∨ call.has "sql" = .ok false) ∧ ∃ log, t' = { t with log }) := by
  simp only [processFunction, run_parts] at h
  obtain ⟨fns, hfns, call, hitem, h⟩ := h
  refine ⟨fns, call, hfns, hitem, ?_⟩
  cases htruthy : call.isTruthy with
  | false =>
    rw [htruthy] at h
    cases h
    exact .inr ⟨.inl rfl, t.log, rfl⟩
  | true =>
    rw [htruthy, if_pos rfl] at h
    obtain ⟨b, hb, h⟩ := run_lift_bind_ok.1 h
    cases b with
    | true => exact .inl ⟨hb, h⟩
    | false =>
      cases raiseOnError with
      | true => exact (run_throw_ok.1 h).elim
      | false =>
        cases h
        exact .inr ⟨.inr hb, _, rfl⟩

def processSupported (raiseOnError own : Bool) (algo : Value) : Job Unit := do
  let algo ← algo.asTextReceiver
  if isSupported algo then processAlgo raiseOnError own algo

section Called

variable {J : Session → Prop} (hcall : ∀ {x t u t'}, J t → IsCalled t.trace x → processCall own x.1 x.2 t = .ok u t' → J t')
  (hlog : ∀ {t}, J t → ∀ log, J { t with log })
include hcall hlog

theorem keeps_processFunction (raiseOnError : Bool) (halgo : isSupported algo = true) {ms : List Value}
    (hfunctions : s.trace.entry algo = .ok functions) (hms : functions.members = .ok ms) (hmem : function ∈ ms) :
    Keeps (fun t => J t ∧ ∀ y, (t.trace.at? (callPlace y)).isSome = (s.trace.at? (callPlace y)).isSome)
      (processFunction raiseOnError own algo function) := by
  rintro t u t' h ⟨hJ, hsame⟩
  obtain ⟨fns, call, hfns, hitem, ⟨hb, hrun⟩ | ⟨-, log, rfl⟩⟩ := processFunction_ok h
  · obtain ⟨p, call', _, _, hplace, hprep, -⟩ := processCall_trace (x := (algo, function.textOrEmpty)) hrun
    have hsome := hsame (algo, function.textOrEmpty)
    rw [hplace] at hsome
    obtain ⟨f, rfl⟩ := text_of_callPlace hfunctions hms hmem hsome.symm
    have hat : t.trace.at? (callPlace (algo, f)) = some call := by
      rw [callPlace, Value.at?_cons, Value.entry_eq_ok_iff.1 hfns]
      exact Value.item_eq_ok_iff.1 hitem
    obtain rfl : call = call' := Option.mem_unique hat hplace
    obtain ⟨statements, hst⟩ := statements_of_prepare hprep hb
    have hcalled : IsCalled t.trace (algo, f) := by
      refine ⟨halgo, statements, ?_⟩
      rw [Value.at?_append, hat]
      exact hst
    exact ⟨hcall hJ hcalled hrun, fun y => by rw [isSome_processCall (x := (algo, f)) hrun, hsame]⟩
  · exact ⟨hlog hJ log, hsame⟩

theorem keeps_processAlgo_called (raiseOnError : Bool) (halgo : isSupported algo = true) : Keeps J (processAlgo raiseOnError own algo) := by
  intro s u s' h hJ
  simp only [processAlgo_eq, run_parts] at h
  obtain ⟨functions, hfunctions, ms, hms, h⟩ := h
  exact (Keeps.forM (fun f hf => keeps_processFunction hcall hlog raiseOnError halgo hfunctions hms hf) h ⟨hJ, fun _ => rfl⟩).1

theorem keeps_processSupported (raiseOnError : Bool) (algo : Value) : Keeps J (processSupported raiseOnError own algo) := by
  refine .lift fun name _ => ?_
  by_cases hn : isSupported name = true
  · rw [if_pos hn]
    exact keeps_processAlgo_called hcall hlog raiseOnError hn
  · rw [if_neg hn]
    exact keeps_pure _

theorem keeps_processAlgos_called (raiseOnError : Bool) (trace : Value) : Keeps J (processAlgos raiseOnError own trace) :=
  .lift fun _ _ => Keeps.forM fun algo _ => keeps_processSupported hcall hlog raiseOnError algo

theorem processAlgos_brings {K : Session → Prop}
    (hkeep : ∀ {x t u t'}, J t → K t → IsCalled t.trace x → processCall own x.1 x.2 t = .ok u t' → K t')
    (hklog : ∀ {t}, K t → ∀ log, K { t with log }) (hcalled : ∀ {t}, J t → IsCalled t.trace x)
    (hbrings : ∀ {t u t'}, J t → processCall own x.1 x.2 t = .ok u t' → K t') (h : processAlgos raiseOnError own trace s = .ok u s')
    (htrace : IsCalled trace x) (hJ : J s) : K s' := by
  have hboth : ∀ {x t u t'}, J t ∧ K t → IsCalled t.trace x → processCall own x.1 x.2 t = .ok u t' → J t' ∧ K t' :=
    fun hI hx hrun => ⟨hcall hI.1 hx hrun, hkeep hI.1 hI.2 hx hrun⟩
  have hbothlog : ∀ {t}, J t ∧ K t → ∀ log, J { t with log } ∧ K { t with log } := fun hI log => ⟨hlog hI.1 log, hklog hI.2 log⟩
  -- one algorithm
  have halgo : ∀ {t v t'}, J t → processAlgo raiseOnError own x.1 t = .ok v t' → J t' ∧ K t' := by
    intro t v t' hJt hrun
    simp only [processAlgo_eq, run_parts] at hrun
    obtain ⟨functions, hfunctions, ms, hms, hrun⟩ := hrun
    have hx := hcalled hJt
    obtain ⟨fs, statements, hat, hsql⟩ := hx.call
    have hmem : Value.text x.2 ∈ ms := by
      rw [callPlace, Value.at?_cons, Value.entry_eq_ok_iff.1 hfunctions] at hat
      obtain ⟨gs, rfl, hgs⟩ := Value.entry_ok.1 (Value.entry_eq_ok_iff.2 hat)
      cases hms
      exact List.mem_map.2 ⟨_, Fields.mem_of_lookup hgs, rfl⟩
    refine (forM_run_brings (fun f hf => keeps_processFunction hcall hlog raiseOnError hx.1 hfunctions hms hf)
      (fun f hf => keeps_processFunction hboth hbothlog raiseOnError hx.1 hfunctions hms hf) hmem ?_ hrun
      ⟨hJt, fun _ => rfl⟩).1
    rintro r w r' ⟨hJr, hsame⟩ hstep
    obtain ⟨fs', statements', hat', hsql'⟩ := (hcalled hJr).call
    obtain ⟨fns, call, hfns, hitem, hcases⟩ := processFunction_ok hstep
    have hcall' : r.trace.at? (callPlace x) = some call := by
      rw [callPlace, Value.at?_cons, Value.entry_eq_ok_iff.1 hfns]
      exact Value.item_eq_ok_iff.1 hitem
    obtain rfl : .object fs' = call := Option.mem_unique hat' hcall'
    have hhas : (Value.object fs').has "sql" = .ok true := by
      rw [Value.has_object, hsql']
      rfl
    rcases hcases with ⟨-, hproc⟩ | ⟨hno | hno, -⟩
    · refine ⟨⟨hcall hJr (hcalled hJr) hproc, hbrings hJr hproc⟩, fun y => ?_⟩
      rw [isSome_processCall (x := x) hproc, hsame]
    · cases fs' with
      | nil => cases hsql'
      | cons f fs' => cases hno
    · rw [hhas] at hno
      cases hno
  -- all algorithms
  obtain ⟨algos, hms, h⟩ := run_lift_bind_ok.1 h
  have hmem : Value.text x.1 ∈ algos := by
    obtain ⟨fs, statements, hat, -⟩ := htrace.call
    rw [callPlace, Value.at?_cons, Option.bind_eq_some_iff] at hat
    obtain ⟨functions, hat, -⟩ := hat
    obtain ⟨gs, rfl, hgs⟩ := Value.entry_ok.1 (Value.entry_eq_ok_iff.2 hat)
    cases hms
    exact List.mem_map.2 ⟨_, Fields.mem_of_lookup hgs, rfl⟩
  refine (forM_run_brings (fun algo _ => keeps_processSupported hcall hlog raiseOnError algo)
    (fun algo _ => keeps_processSupported hboth hbothlog raiseOnError algo) hmem ?_ h hJ).2
  intro t v t' hJt hrun
  obtain ⟨name, hname, hrun⟩ := run_lift_bind_ok.1 hrun
  obtain rfl : x.1 = name := Except.ok.inj hname
  rw [if_pos htrace.1] at hrun
  exact halgo hJt hrun

end Called

/-! ## Procedures and their calls -/

def storedKeys : List String := ["sql", "input_tables", "output_tables", "output_vars", "synonyms", "metadata"]

/-- A procedure that its call would be processed to now: it was stored from a call that has become the traced one. -/
structure Current (trace : Value) (x : ProcedureName) (o : Value) : Prop where
  metadata : ∃ metadata, metadataOf (.text x.1) (.text x.2) = .ok metadata ∧ o.entry "metadata" = .ok metadata
  call : ∃ call p call' now ins outs, PreparedAs call p call' ∧ trace.at? (callPlace x) = some now ∧
    call'.SameBut ["function"] now ∧ o.entry "input_tables" = .ok ins ∧ SameSelects p.inputTables ins ∧
    o.entry "output_tables" = .ok outs ∧ SameSelects p.outputTables outs

theorem Current.sameBut (h : Current trace x o) {keys : List String} (hs : o.SameBut keys o') (hkeys : ∀ k ∈ storedKeys, k ∉ keys) :
    Current trace x o' where
  metadata := by
    rw [hs.entry (hkeys _ (by decide))]
    exact h.metadata
  call := by
    rw [hs.entry (hkeys _ (by decide)), hs.entry (hkeys _ (by decide))]
    exact h.call

theorem Current.congr {trace' : Value} (h : Current trace x o) (ht : trace'.at? (callPlace x) = trace.at? (callPlace x)) :
    Current trace' x o where
  metadata := h.metadata
  call := by
    rw [ht]
    exact h.call

def SelectsIn (key : String) (o o' : Value) : Prop :=
  ∀ t, TableOf key o t → ∃ t', TableOf key o' t' ∧ SameSelect t t'

theorem partsUnder_of_entry (h : o.entry key = .ok v) : partsUnder key o = v.members := by
  obtain ⟨fs, rfl, hfs⟩ := Value.entry_ok.1 h
  rw [partsUnder_object, hfs]
  rfl

theorem selectsIn_of_entries {v' w w' : Value} (added : List Value) (ho : o.entry key = .ok v) (ho' : o'.entry key = .ok v')
    (hv : SameSelects w v) (hv' : SameSelects w' v') (hw : ∀ ts, w.members = .ok ts → w'.members = .ok (ts ++ added)) :
    SelectsIn key o o' := by
  obtain ⟨ts, us, hts, hus, hall⟩ := hv
  obtain ⟨ts', us', hts', hus', hall'⟩ := hv'
  obtain rfl := ok_unique (hw ts hts) hts'
  rintro u ⟨us1, hus1, hu⟩
  rw [partsUnder_of_entry ho, hus] at hus1
  cases hus1
  obtain ⟨t, ht, htu⟩ := forall₂_mem_right hall hu
  obtain ⟨u', hu', htu'⟩ := forall₂_mem_left hall' (List.mem_append_left added ht)
  exact ⟨u', ⟨us', (partsUnder_of_entry ho').trans hus', hu'⟩, Eq.trans htu' htu.symm⟩

theorem Value.entry_withEntries {fs entries : Fields} {k : String} (h : entries.reverse.lookup k = some v) :
    (Value.withEntries (.object fs) entries).entry k = .ok v := by
  show Value.entry (.object _) k = _
  rw [Value.entry_object, Fields.lookup_foldl_set, h]
  rfl

theorem putInto_entries {b : BaseParts} {metadata old : Value} (h : b.putInto metadata old = .ok o) :
    old.SameBut storedKeys o ∧ o.entry "input_tables" = .ok b.inputTables ∧
      o.entry "output_tables" = .ok b.outputTables ∧ o.entry "metadata" = .ok metadata := by
  simp only [BaseParts.putInto, bind_ok, pure_ok] at h
  obtain ⟨v, hv, rfl⟩ := h
  cases old with
  | object fs =>
    cases hv
    refine ⟨⟨fs, _, rfl, rfl, fun k hk => ?_⟩, Value.entry_withEntries rfl, Value.entry_withEntries rfl, Value.entry_withEntries rfl⟩
    rw [storedKeys, List.mem_cons, not_or] at hk
    rw [lookup_foldl_set_of_not_mem hk.2, Fields.lookup_set_ne hk.1]
  | _ => cases hv

/-- What processing a call does to the session: the procedure of the call is stored, as the call would be processed to now, and
has at least the selects of what the call was processed to before. -/
structure CallStored (x : ProcedureName) (s s' : Session) (layers layers' o : Value) : Prop where
  settings : s'.settings = s.settings.set Setting.layers layers'
  base : IsBaseLayer layers'
  procedure : procedureAt? layers' x = some o
  others : ∀ y, y ≠ x → procedureAt? layers' y = procedureAt? layers y
  entries : ∀ k, k ≠ baseKey → layers'.at? [.key k] = layers.at? [.key k]
  kept : ((procedureAt? layers x).getD (.object [])).SameBut storedKeys o
  current : Current s'.trace x o
  again : ∀ {o'}, Current s.trace x o' → SelectsIn "input_tables" o' o ∧ SelectsIn "output_tables" o' o
  calls : ∀ y, y ≠ x → ∀ q, s'.trace.at? (callPlace y ++ q) = s.trace.at? (callPlace y ++ q)
  call : ∀ k, k ∉ ["input_tables", "output_vars", "function"] →
    s'.trace.at? (callPlace x ++ [.key k]) = s.trace.at? (callPlace x ++ [.key k])

theorem processCall_stored (h : processCall own x.1 x.2 s = .ok u s') (hx : IsCalled s.trace x)
    (hl : s.settings.entry Setting.layers = .ok layers) (hb : layers = .object [] ∨ IsBaseLayer layers) :
    ∃ layers' o, CallStored x s s' layers layers' o := by
  obtain ⟨p, trace, l, b, functions, layers', hp, hl', hbuild, hstore, ht, hst⟩ := processCall_ok h
  obtain rfl := ok_unique hl hl'
  obtain ⟨call, call', hplace, hprep, rfl⟩ := Value.within_ok hp
  obtain ⟨fs, statements, hcall, -⟩ := hx.call
  obtain rfl : .object fs = call := Option.mem_unique hcall hplace
  have has := prepare_as hprep
  obtain ⟨gs, rfl⟩ := has.rest.isObject
  obtain ⟨o, ho⟩ := storeBase_into hstore hb
  obtain ⟨metadata, hmetadata, hput⟩ := ho.put
  obtain ⟨hkept, hins, houts, hmeta⟩ := putInto_entries hput
  obtain ⟨hsin, hsout⟩ := buildBase_select hbuild
  have hnow : s'.trace.at? (callPlace x) = some ((Value.object gs).putAt [.key "function"] functions) := by
    rw [ht, Value.putAt, Value.at?_modifyAt_append, Value.at?_putAt_self _ hplace]
    rfl
  have hsame := Value.sameBut_putAt gs "function" functions
  refine ⟨layers', o, hst, ho.base, ho.procedure, ho.others, ho.entries, hkept,
    ⟨⟨metadata, hmetadata, hmeta⟩, _, p, _, _, _, _, has, hnow, hsame, hins, hsin, houts, hsout⟩, ?_,
    fun y hy q => ?_, fun k hk => ?_⟩
  -- the call that another procedure was stored from has become this one
  · rintro o' ⟨-, call0, p0, call0', now, ins0, outs0, has0, hnow0, hsame0, hins0, hsin0, houts0, hsout0⟩
    obtain rfl : .object fs = now := Option.mem_unique hplace hnow0
    obtain ⟨houtputs, hinputs⟩ := has0.again hsame0 has
    obtain ⟨ts, us, hts, hus, hall⟩ := id hsin0
    obtain ⟨added, hadded⟩ := hinputs ts hts
    refine ⟨selectsIn_of_entries added hins0 hins hsin0 hsin fun ts' hts' => ?_,
      selectsIn_of_entries [] houts0 houts hsout0 hsout fun ts' hts' => ?_⟩
    · obtain rfl := ok_unique hts hts'
      exact hadded
    · rw [houtputs, hts', List.append_nil]
  · have hapart := ((callPlace_apart hy).append q).symm
    rw [ht, Value.putAt, Value.at?_modifyAt_of_apart _ (hapart.append _), Value.putAt, Value.at?_modifyAt_of_apart _ hapart]
  · rw [Value.at?_append, hnow, Value.at?_append, hplace]
    have hall : (Value.object fs).SameBut ["input_tables", "output_vars", "function"]
        ((Value.object gs).putAt [.key "function"] functions) :=
      (has.rest.mono (by simp)).trans (hsame.mono (by simp))
    exact hall.at? hk []

end TraceArtifacts
