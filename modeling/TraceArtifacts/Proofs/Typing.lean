import TraceArtifacts.Proofs.Processing

/-!
# Proofs: the types of tables and variables

Traced tables have a column list and traced variables a type, each under its own key.
-/

namespace TraceArtifacts

variable {p : Prepared} {settings : Settings} {k key : String} {algo call call' entry function t t' v v' w x : Value}

def Lacks (key : String) (v : Value) : Prop := ∀ fs, v = .object fs → fs.lookup key = none

def AllLack (key : String) (v : Value) : Prop := ∀ ms, v.members = .ok ms → ∀ t ∈ ms, Lacks key t

/-! ## Records and lists -/

theorem Lacks.setEntry (h : Lacks key v) (hk : key ≠ k) (hw : v.setEntry k x = .ok w) : Lacks key w := by
  obtain ⟨fs, gs, rfl, rfl, hsame⟩ := Value.sameBut_setEntry hw
  rintro _ ⟨rfl⟩
  rw [hsame key (by simpa using hk)]
  exact h fs rfl

theorem lookup_foldl_set_of_not_mem {entries fs : Fields} (h : key ∉ entries.map Prod.fst) :
    (entries.foldl (fun fs p => fs.set p.1 p.2) fs).lookup key = fs.lookup key := by
  have hnone : entries.reverse.lookup key = none := by
    rw [List.lookup_eq_none_iff]
    intro p hp
    exact bne_iff_ne.2 fun heq => h (heq ▸ List.mem_map_of_mem (List.mem_reverse.1 hp))
  rw [Fields.lookup_foldl_set, hnone, Option.none_or]

theorem Lacks.withEntries (h : Lacks key v) {entries : Fields} (hk : key ∉ entries.map Prod.fst) : Lacks key (v.withEntries entries) := by
  cases v with
  | object fs =>
    rintro _ ⟨rfl⟩
    rw [lookup_foldl_set_of_not_mem hk]
    exact h fs rfl
  | _ => exact h

theorem allLack_list {xs : List Value} : AllLack key (.list xs) ↔ ∀ t ∈ xs, Lacks key t := by
  constructor
  · intro h
    exact h xs rfl
  · rintro h _ ⟨rfl⟩
    exact h

theorem AllLack.modifyAt {f : Value → Value} (hf : ∀ {w}, Lacks key w → Lacks key (f w)) (h : AllLack key v) (i : Nat) :
    AllLack key (v.modifyAt f [.position i]) := by
  cases v with
  | list xs =>
    rw [allLack_list] at h
    refine allLack_list.2 fun t ht => ?_
    obtain ⟨j, hj⟩ := List.getElem?_of_mem ht
    by_cases hij : i = j
    · subst hij
      rw [List.getElem?_modify_eq] at hj
      obtain ⟨w, hw, rfl⟩ := Option.map_eq_some_iff.1 hj
      exact hf (h w (List.mem_of_getElem? hw))
    · rw [List.getElem?_modify_ne _ _ hij] at hj
      exact h t (List.mem_of_getElem? hj)
  | _ => exact h

theorem AllLack.append {xs : List Value} (h : AllLack key v) (hxs : ∀ t ∈ xs, Lacks key t) (hw : v.append xs = .ok w) : AllLack key w := by
  cases v with
  | list ys =>
    obtain rfl : Value.list (ys ++ xs) = w := Except.ok.inj hw
    refine allLack_list.2 fun t ht => ?_
    rcases List.mem_append.1 ht with ht | ht
    · exact h ys rfl t ht
    · exact hxs t ht
  | _ => cases hw

/-! ## Names and marks -/

def namingKeys : List String :=
  ["transformed_name", "cat", "interface_name", "object_name", "dbobject_name", "dbobject_name_schema",
   "in_sql", "synonym", "orig_name", "name", "orig_select", "select"]

theorem foldlM_noteStatement_keeps {P : Value → Prop} (hP : ∀ {t v u : Value}, t.setEntry "in_sql" v = .ok u → P t → P u)
    {statements : List Value} (h : statements.foldlM noteStatement t = .ok t') (ht : P t) : P t' := by
  have hstep : ∀ {t u statement : Value}, noteStatement t statement = .ok u → P t → P u := by
    intro t u statement h ht
    simp only [noteStatement, bind_ok] at h
    obtain ⟨t1, h1, v, -, h⟩ := h
    have ht1 : P t1 := by
      obtain ⟨b, -, h1⟩ := bind_ok.1 h1
      cases b with
      | false => exact hP h1 ht
      | true =>
        cases h1
        exact ht
    split at h
    · cases h
      exact ht1
    · simp only [bind_ok] at h
      obtain ⟨_, -, b, -, h⟩ := h
      cases b with
      | false =>
        cases h
        exact ht1
      | true => exact hP h ht1
  induction statements generalizing t with
  | nil =>
    cases h
    exact ht
  | cons s statements ih =>
    rw [List.foldlM_cons] at h
    obtain ⟨t1, h1, h⟩ := bind_ok.1 h
    exact ih h (hstep h1 ht)

theorem noteAll_run {P : Value → Prop}
    (hP : ∀ {w} (s : Synonym) i, P w → P (w.modifyAt (·.withEntries [("synonym", .text s.synonym)]) [.position i]))
    {synonymOf : Value → Outcome (Option Synonym)} {synonyms : List Synonym} (h : Synonym.noteAll synonymOf v = .ok synonyms v')
    (hv : P v) : P v' ∧ ∀ s ∈ synonyms, ∃ member, synonymOf member = .ok (some s) := by
  simp only [Synonym.noteAll, run_parts, run_pure_ok] at h
  obtain ⟨numbered, -, found, v1, hrun, rfl, rfl⟩ := h
  refine And.imp_right (fun hfound s hs => ?_)
    (mapM_run_ok (I := fun _ => P) (R := fun _ ss => ∀ s ∈ ss, ∃ member, synonymOf member = .ok (some s)) ?_ hv hrun)
  · obtain ⟨ss, hss, hs⟩ := List.mem_flatten.1 hs
    obtain ⟨_, -, hmade⟩ := forall₂_mem_right hfound hss
    exact hmade s hs
  · rintro ⟨member, i⟩ - w ss w' hw hstep
    obtain ⟨s?, _, hs, hstep⟩ := run_bind_ok.1 hstep
    obtain ⟨hmember, rfl⟩ := run_lift_ok.1 hs
    cases s? with
    | none =>
      cases hstep
      exact ⟨hw, List.forall_mem_nil _⟩
    | some s =>
      simp only [run_bind_ok, run_modify_ok, run_pure_ok] at hstep
      obtain ⟨_, _, rfl, rfl, rfl⟩ := hstep
      exact ⟨hP s i hw, by simpa using ⟨member, hmember⟩⟩

section Naming

variable (hkey : key ∉ namingKeys)
include hkey

theorem lacks_setEntry (hk : k ∈ namingKeys) (hw : v.setEntry k x = .ok w) (h : Lacks key v) : Lacks key w :=
  h.setEntry (fun e => hkey (by rw [e]; exact hk)) hw

theorem nameTable_lacks (h : nameTable settings algo function t = .ok t') (ht : Lacks key t) : Lacks key t' := by
  obtain ⟨b, -, h⟩ := bind_ok.1 h
  cases b with
  | false =>
    cases h
    exact ht
  | true =>
    simp only [if_not_true, bind_ok, pure_ok] at h
    obtain ⟨_, -, _, -, _, -, _, -, _, -, _, -, rfl⟩ := h
    have hsub : ∀ k ∈ ["transformed_name", "cat", "interface_name", "object_name", "dbobject_name",
        "dbobject_name_schema"], k ∈ namingKeys := by decide
    exact ht.withEntries fun hk => hkey (hsub key hk)

theorem extendTables_lacks {statements tables tables' : Value} (h : extendTables settings algo function statements tables = .ok tables')
    (ht : AllLack key tables) : AllLack key tables' := by
  simp only [extendTables, bind_ok, pure_ok] at h
  obtain ⟨ms, hms, ts, hts, rfl⟩ := h
  refine allLack_list.2 fun t ht' => ?_
  obtain ⟨t0, ht0, h0⟩ := forall₂_mem_right (mapM_ok.1 hts) ht'
  simp only [extendTable, bind_ok] at h0
  obtain ⟨t1, h1, ss, -, h0⟩ := h0
  exact foldlM_noteStatement_keeps (lacks_setEntry hkey (by decide)) h0 (nameTable_lacks hkey h1 (ht ms hms t0 ht0))

theorem extendVariables_lacks {vars vars' : Value} (h : extendVariables algo function vars = .ok vars') (hv : AllLack key vars) :
    AllLack key vars' := by
  simp only [extendVariables, bind_ok, pure_ok] at h
  obtain ⟨ms, hms, ts, hts, rfl⟩ := h
  refine allLack_list.2 fun t ht' => ?_
  obtain ⟨t0, ht0, h0⟩ := forall₂_mem_right (mapM_ok.1 hts) ht'
  obtain ⟨b, -, h0⟩ := bind_ok.1 h0
  cases b with
  | false =>
    obtain rfl := pure_ok.1 h0
    exact hv ms hms t0 ht0
  | true =>
    simp only [if_not_true, bind_ok, pure_ok] at h0
    obtain ⟨_, -, _, -, _, -, rfl⟩ := h0
    have hsub : ∀ k ∈ ["transformed_name", "cat", "interface_name"], k ∈ namingKeys := by decide
    exact (hv ms hms t0 ht0).withEntries fun hk => hkey (hsub key hk)

theorem noteAll_lacks {synonymOf : Value → Outcome (Option Synonym)} {synonyms : List Synonym}
    (h : Synonym.noteAll synonymOf v = .ok synonyms v') (hv : AllLack key v) : AllLack key v' := by
  have hsyn : key ≠ "synonym" := fun e => hkey (by rw [e]; decide)
  exact (noteAll_run (fun s i hw => hw.modifyAt (fun hl => hl.withEntries fun hk => hsyn (List.mem_singleton.1 hk)) i) h hv).1

theorem renamedOutput_lacks {output output' : Value} (h : renamedOutput entry output = .ok output') (ho : Lacks key output) :
    Lacks key output' := by
  simp only [renamedOutput, bind_ok, pure_ok] at h
  obtain ⟨_, -, o1, h1, _, -, o2, h2, _, -, o3, h3, _, -, _, -, _, -, rfl⟩ := h
  have ho1 := lacks_setEntry hkey (by decide) h1 ho
  have ho2 := lacks_setEntry hkey (by decide) h2 ho1
  exact lacks_setEntry hkey (by decide) h3 ho2

theorem matchingOutputs_lacks {outputs : Value} {found : List Value} (h : matchingOutputs outputs entry = .ok found)
    (ho : AllLack key outputs) : ∀ t ∈ found, Lacks key t := by
  simp only [matchingOutputs, bind_ok, pure_ok] at h
  obtain ⟨ms, hms, parts, hparts, rfl⟩ := h
  intro t ht
  obtain ⟨part, hpart, ht⟩ := List.mem_flatten.1 ht
  obtain ⟨output, hout, hp⟩ := forall₂_mem_right (mapM_ok.1 hparts) hpart
  simp only [bind_ok] at hp
  obtain ⟨_, -, _, -, hp⟩ := hp
  split at hp
  · simp only [bind_ok, pure_ok] at hp
    obtain ⟨o', ho', rfl⟩ := hp
    obtain rfl := List.mem_singleton.1 ht
    exact renamedOutput_lacks hkey ho' (ho ms hms output hout)
  · cases hp
    simp at ht

theorem redirectVariables_lacks {table : Value} {u : Unit} (h : redirectVariables table v = .ok u v') (hv : AllLack key v) :
    AllLack key v' := by
  have hselect : key ≠ "select" := fun e => hkey (by rw [e]; decide)
  simp only [redirectVariables, run_parts] at h
  obtain ⟨numbered, -, h⟩ := h
  refine Keeps.forM (I := fun v => AllLack key v) ?_ h hv
  rintro ⟨w, i⟩ -
  refine .lift fun select? _ => ?_
  cases select? with
  | none => exact keeps_pure _
  | some select =>
    intro w1 u w2 hstep hw
    cases hstep
    refine hw.modifyAt (fun {t} ht => ?_) i
    rintro _ ⟨rfl⟩
    rw [Fields.lookup_set_ne hselect]
    cases t with
    | object fs => exact ht fs rfl
    | _ => rfl

end Naming

/-! ## Prepared calls -/

structure TypedCall (call : Value) : Prop where
  inputs : ∀ v, call.at? [.key "input_tables"] = some v → AllLack "data_type" v
  outputs : ∀ v, call.at? [.key "output_tables"] = some v → AllLack "data_type" v
  block : ∀ v, call.at? [.key "auto"] = some v → AllLack "data_type" v
  vars : ∀ v, call.at? [.key "output_vars"] = some v → AllLack "table_type" v

theorem allLack_nil (key : String) : AllLack key (.list []) := allLack_list.2 fun t ht => by simp at ht

theorem entryOr_lacks (h : call.entryOr k (.list []) = .ok v) (hc : ∀ v, call.at? [.key k] = some v → AllLack key v) : AllLack key v := by
  obtain ⟨b, -, h⟩ := bind_ok.1 h
  cases b with
  | false =>
    cases h
    exact allLack_nil key
  | true => exact hc v (Value.entry_eq_ok_iff.1 h)

theorem onTraced_ok {c : Change α} {a : α} (h : onTraced key c call = .ok (a, v) call') :
    (∃ w, call.at? [.key key] = some w ∧ c w = .ok a v ∧ call' = call.putAt [.key key] v) ∨
      (call.has key = .ok false ∧ c (.list []) = .ok a v ∧ call' = call) := by
  simp only [onTraced, run_parts] at h
  obtain ⟨b, hhas, h⟩ := h
  cases b with
  | true =>
    simp only [if_true, run_parts, run_pure_ok, Prod.mk.injEq] at h
    obtain ⟨_, t, hw, v', hv, ⟨rfl, rfl⟩, rfl⟩ := h
    obtain ⟨w, w', hplace, hc, rfl⟩ := Value.within_ok hw
    have hself := Value.at?_putAt_self w' hplace
    obtain rfl : w' = v' := Option.mem_unique hself (Value.entry_eq_ok_iff.1 hv)
    exact .inl ⟨w, hplace, hc, rfl⟩
  | false =>
    simp only [Bool.false_eq_true, if_false] at h
    cases hc : c (.list []) with
    | error e w =>
      rw [hc] at h
      exact (run_throw_ok.1 h).elim
    | ok b w =>
      rw [hc] at h
      obtain ⟨he, rfl⟩ := run_pure_ok.1 h
      cases he
      exact .inr ⟨hhas, rfl, rfl⟩

theorem at?_putAt_key {k' : String} {u : Value} (h : (v.putAt [.key k] w).at? [.key k'] = some u) :
    k' = k ∧ u = w ∨ v.at? [.key k'] = some u := by
  by_cases hk : k' = k
  · subst hk
    rw [Value.putAt, Value.at?_modifyAt_self] at h
    obtain ⟨-, -, rfl⟩ := Option.map_eq_some_iff.1 h
    exact .inl ⟨rfl, rfl⟩
  · have hapart : Place.Apart [.key k] [.key k'] := .inl (by simpa using Ne.symm hk)
    rw [Value.putAt, Value.at?_modifyAt_of_apart _ hapart] at h
    exact .inr h

theorem TypedCall.put (h : TypedCall call) (htables : k ∈ ["input_tables", "output_tables", "auto"] → AllLack "data_type" v)
    (hvars : k = "output_vars" → AllLack "table_type" v) : TypedCall (call.putAt [.key k] v) := by
  refine ⟨fun u hu => ?_, fun u hu => ?_, fun u hu => ?_, fun u hu => ?_⟩
  · rcases at?_putAt_key hu with ⟨rfl, rfl⟩ | hu
    · exact htables (by decide)
    · exact h.inputs u hu
  · rcases at?_putAt_key hu with ⟨rfl, rfl⟩ | hu
    · exact htables (by decide)
    · exact h.outputs u hu
  · rcases at?_putAt_key hu with ⟨rfl, rfl⟩ | hu
    · exact htables (by decide)
    · exact h.block u hu
  · rcases at?_putAt_key hu with ⟨rfl, rfl⟩ | hu
    · exact hvars rfl
    · exact h.vars u hu

theorem firstGroup_subset {b : Bool} {entries inputs outputs : List Value}
    (h : firstGroup b entries = .ok (inputs, outputs)) : inputs ⊆ entries := by
  induction entries generalizing b inputs outputs with
  | nil =>
    obtain ⟨rfl, rfl⟩ := Prod.mk.inj (Except.ok.inj h)
    exact List.Subset.refl _
  | cons entry rest ih =>
    simp only [firstGroup, bind_ok] at h
    obtain ⟨named, -, h⟩ := h
    cases named with
    | false => exact List.subset_cons_of_subset _ (ih h)
    | true =>
      simp only [if_true, bind_ok] at h
      obtain ⟨name, -, isInput, -, h⟩ := h
      split at h
      · obtain ⟨rfl, rfl⟩ := Prod.mk.inj (pure_ok.1 h)
        exact List.nil_subset _
      · simp only [bind_ok, pure_ok, Prod.mk.injEq] at h
        obtain ⟨isOutput, -, ⟨ins, outs⟩, hrest, rfl, -⟩ := h
        cases isInput with
        | false => exact List.subset_cons_of_subset _ (ih hrest)
        | true => exact List.cons_subset_cons _ (ih hrest)

/-- What a call is processed from is typed as the call is. -/
structure TypedParts (inputs outputs vars : Value) : Prop where
  inputs : AllLack "data_type" inputs
  outputs : AllLack "data_type" outputs
  vars : AllLack "table_type" vars

theorem prepareBlock_typed {p' : Prepared} {block : String} (h : prepareBlock p block call = .ok p' call') (hc : TypedCall call)
    (hp : AllLack "data_type" p.outputTables) : TypedCall call' ∧ TypedParts p'.inputTables p'.outputTables p'.outputVars := by
  simp only [prepareBlock, run_parts, run_pure_ok, Prod.exists] at h
  obtain ⟨auto, hauto, entries, hentries, ins, outs, hgroup, _, inputTables, c1, h1, outputs, houtputs, _, vars, c2, h2, rfl, rfl⟩ := h
  have hins : ∀ t ∈ ins, Lacks "data_type" t := fun t ht =>
    hc.block auto (Value.entry_eq_ok_iff.1 hauto) entries hentries t (firstGroup_subset hgroup ht)
  -- the inputs of the block are added to the traced ones
  have happend : ∀ {w v : Value} {u : Unit}, (do
        if !ins.isEmpty then Change.apply (·.append ins) : Change Unit) w = .ok u v →
      AllLack "data_type" w → AllLack "data_type" v := by
    intro w v u hwv hw
    split at hwv
    · simp only [Change.apply, run_parts, run_set_ok] at hwv
      obtain ⟨_, hv, rfl⟩ := hwv
      exact hw.append hins hv
    · cases hwv
      exact hw
  have hinputs : AllLack "data_type" inputTables ∧ TypedCall c1 := by
    rcases onTraced_ok h1 with ⟨w, hw, hwv, rfl⟩ | ⟨-, hwv, rfl⟩
    · have hv := happend hwv (hc.inputs w hw)
      exact ⟨hv, hc.put (fun _ => hv) (fun e => absurd e (by decide))⟩
    · exact ⟨happend hwv (allLack_nil _), hc⟩
  -- the selects of variables are pointed to the block
  have hredirect : ∀ {w v : Value} {u : Unit}, outputs.flatten.forM redirectVariables w = .ok u v →
      AllLack "table_type" w → AllLack "table_type" v := fun hwv hw =>
    Keeps.forM (I := fun v => AllLack "table_type" v) (fun table _ w u v hv hw => redirectVariables_lacks (by decide) hv hw) hwv hw
  have hvars : AllLack "table_type" vars ∧ TypedCall c2 := by
    rcases onTraced_ok h2 with ⟨w, hw, hwv, rfl⟩ | ⟨-, hwv, rfl⟩
    · have hv := hredirect hwv (hinputs.2.vars w hw)
      exact ⟨hv, hinputs.2.put (fun e => absurd e (by decide)) (fun _ => hv)⟩
    · exact ⟨hredirect hwv (allLack_nil _), hinputs.2⟩
  refine ⟨hvars.2, hinputs.1, allLack_list.2 fun t ht => ?_, hvars.1⟩
  obtain ⟨part, hpart, ht⟩ := List.mem_flatten.1 ht
  obtain ⟨entry, -, hentry⟩ := forall₂_mem_right (mapM_ok.1 houtputs) hpart
  exact matchingOutputs_lacks (by decide) hentry hp t ht

theorem prepare_typed (h : prepare call = .ok p call') (hc : TypedCall call) :
    TypedCall call' ∧ TypedParts p.inputTables p.outputTables p.outputVars := by
  simp only [prepare, run_parts] at h
  obtain ⟨functions, -, statements, -, ins, hins, outs, houts, vars, hvars, shares, -, b, -, h⟩ := h
  have hparts : TypedParts ins outs vars := ⟨entryOr_lacks hins hc.inputs, entryOr_lacks houts hc.outputs, entryOr_lacks hvars hc.vars⟩
  split at h
  · cases h
    exact ⟨hc, hparts⟩
  · obtain ⟨block, -, h⟩ := run_lift_bind_ok.1 h
    split at h
    · cases h
      exact ⟨hc, hparts⟩
    · exact prepareBlock_typed h hc hparts.outputs

/-! ## Stored procedures -/

theorem extendedIf_ok {extend : Value → Outcome Value} (h : extendedIf extend v = .ok w) (hv : AllLack key v)
    (hextend : extend v = .ok w → AllLack key v → AllLack key w) : AllLack key w := by
  unfold extendedIf at h
  split at h
  · exact hextend h hv
  · cases h
    exact hv

theorem buildBase_typed {functions functions' : Value} {b : BaseParts}
    (h : buildBase settings algo function p functions = .ok b functions') (hp : TypedParts p.inputTables p.outputTables p.outputVars) :
    TypedParts b.inputTables b.outputTables b.outputVars := by
  obtain ⟨ins, _, _, hins, houts, hvars, -, hn, -⟩ := buildBase_ok.1 h
  exact ⟨noteAll_lacks (by decide) hn (extendedIf_ok hins hp.inputs (extendTables_lacks (by decide))),
    extendedIf_ok houts hp.outputs (extendTables_lacks (by decide)), extendedIf_ok hvars hp.vars (extendVariables_lacks (by decide))⟩

def TypedTrace (trace : Value) : Prop :=
  ∀ x call, trace.at? (callPlace x) = some call → TypedCall call

theorem callPlace_apart {x y : ProcedureName} (h : x ≠ y) : (callPlace x).Apart (callPlace y) := by
  by_cases h1 : x.1 = y.1
  · have h2 : x.2 ≠ y.2 := fun e => h (Prod.ext h1 e)
    exact .inr (.inl (by simpa using h2))
  · exact .inl (by simpa using h1)

theorem TypedTrace.modifyAt {trace : Value} (h : TypedTrace trace) {x : ProcedureName} {q : Place}
    {f : Value → Value} (hf : ∀ {call}, TypedCall call → TypedCall (call.modifyAt f q)) :
    TypedTrace (trace.modifyAt f (callPlace x ++ q)) := by
  intro y call hcall
  by_cases hxy : y = x
  · subst hxy
    rw [Value.at?_modifyAt_append] at hcall
    obtain ⟨c, hc, rfl⟩ := Option.map_eq_some_iff.1 hcall
    exact hf (h y c hc)
  · rw [Value.at?_modifyAt_of_apart _ ((callPlace_apart (Ne.symm hxy)).append q)] at hcall
    exact h y call hcall

theorem storesAs_typed : StoresAs TypedTrace fun b => TypedParts b.inputTables b.outputTables b.outputVars := by
  intro x settings trace trace' functions p b ht hp hb
  obtain ⟨call, call', hplace, hprep, rfl⟩ := Value.within_ok hp
  obtain ⟨hcall', hparts⟩ := prepare_typed hprep (ht x call hplace)
  have htrace : TypedTrace (trace.putAt (callPlace x) call') := ht.modifyAt (q := []) fun _ => hcall'
  refine ⟨buildBase_typed hb hparts, htrace.modifyAt fun hc => ?_⟩
  exact hc.put (fun e => absurd e (by decide)) (fun e => absurd e (by decide))

end TraceArtifacts
