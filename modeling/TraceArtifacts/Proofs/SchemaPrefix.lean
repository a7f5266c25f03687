import TraceArtifacts.Proofs.Filling
import TraceArtifacts.Proofs.Drafts

/-!
# Proofs: drafting puts the schema before the names of tables

Drafting an element puts the schema before the name of each table that it keeps, and leaves that name in the layers.
-/

namespace TraceArtifacts.Graph

variable {s s' : DraftState} {c : ElementContext} {n : Nat} {place : Place} {schema : String} {u : Unit}

/-! ## Steps that leave layers and statements alone -/

def HasDrafted (layers : Value) (statements : List Value) (s : DraftState) : Prop :=
  s.layers = layers ∧ s.statements = statements

section HasDrafted

variable {layers : Value} {statements : List Value}

theorem framed_hasDrafted {groups : Value} : Framed groups (HasDrafted layers statements) := framed_of_others fun _ _ _ h => h

theorem keeps_addOutPort (name : Value) : Keeps (HasDrafted layers statements) (addOutPort name) := by
  intro s u s' h hs
  cases h
  exact hs

theorem keeps_addPortValue (c : ElementContext) (name item : Value) : Keeps (HasDrafted layers statements) (addPortValue c name item) := by
  refine .lift fun _ _ => .lift fun _ _ s u s' h hs => ?_
  cases h
  exact hs

theorem keeps_draftLink (c : ElementContext) (item link : Value) (name : String) :
    Keeps (HasDrafted layers statements) (draftLink c item link name) :=
  (keeps_addOutPort _).bind fun _ => (keeps_addPortValue _ _ _).bind fun _ => .lift fun _ _ => .lift fun _ _ =>
    .lift fun _ _ => .lift fun _ _ => framed_hasDrafted.connections _

end HasDrafted

/-! ## Records after a number of generations -/

def keptName (schema : String) : Nat → Value → Value
  | 0, name => name
  | n + 1, name => .text (schema ++ "." ++ (keptName schema n name).textOrEmpty)

def keptVars (schema : String) (n : Nat) (t : OutputTable) : Value :=
  .list [keptName schema n t.dbObjectName, keptName schema n t.dbObjectName, t.name]

def outputAfter (schema : String) (n : Nat) : OutputItem → Value
  | .table t => t.toValue.putAt [.key "sql_vars"] (keptVars schema n t)
  | .var v => v.toValue

def elementAfter (schema : String) (n : Nat) (e : Element) : Value :=
  e.toValue.putAt [.key "sql", .key "output"] (.list (e.outputs.map (outputAfter schema n)))

theorem outputAfter_zero (schema : String) (o : OutputItem) : outputAfter schema 0 o = o.toValue := by
  cases o with
  | table t => exact Value.putAt_self rfl
  | var v => rfl

theorem at?_output (e : Element) : e.toValue.at? [.key "sql", .key "output"] = some (.list (e.outputs.map OutputItem.toValue)) := by
  unfold Element.toValue
  cases e.single <;> rfl

theorem elementAfter_zero (schema : String) (e : Element) : elementAfter schema 0 e = e.toValue := by
  have h : outputAfter schema 0 = OutputItem.toValue := funext (outputAfter_zero schema)
  rw [elementAfter, h]
  exact Value.putAt_self (at?_output e)

theorem outputAfter_put (schema : String) (n : Nat) (t : OutputTable) :
    (outputAfter schema n (.table t)).putAt [.key "sql_vars"] (keptVars schema (n + 1) t) =
      outputAfter schema (n + 1) (.table t) := Value.putAt_putAt ..

theorem elementAfter_put (schema : String) (n : Nat) (e : Element) :
    (elementAfter schema n e).putAt [.key "sql", .key "output"] (.list (e.outputs.map (outputAfter schema (n + 1)))) =
      elementAfter schema (n + 1) e := Value.putAt_putAt ..

theorem outputAfter_sameBut (schema : String) (n : Nat) (t : OutputTable) :
    t.toValue.SameBut ["sql_vars"] (outputAfter schema n (.table t)) := Value.sameBut_putAt ..

theorem vars_outputAfter (schema : String) (n : Nat) (t : OutputTable) :
    (outputAfter schema n (.table t)).entry "sql_vars" = .ok (keptVars schema n t) :=
  Value.entry_eq_ok_iff.2 (Value.at?_putAt_self _ rfl)

/-! ## One output -/

theorem keepTable_run {item : Value} (h : keepTable c place item s = .ok u s') {a b d : Value}
    (hvars : item.entry "sql_vars" = .ok (.list [a, b, d])) :
    ∃ schema name sql text, c.schema = .text schema ∧ a = .text name ∧ item.entry "sql" = .ok sql ∧
      fillWith sql (.ok (.list [.text (schema ++ "." ++ name), .text (schema ++ "." ++ name), d])) = .ok text ∧
      s'.layers = s.layers.putAt (place ++ [.key "sql_vars"]) (.list [.text (schema ++ "." ++ name), .text (schema ++ "." ++ name), d]) ∧
      s'.statements = s.statements ++ [.text text] := by
  simp only [keepTable, run_parts, run_modify_ok, hvars, Except.ok.injEq, addStatement] at h
  obtain ⟨schema, hschema, vars, rfl, first, hfirst, name, hname, vars1, hvars1, _, _, rfl, vars2, hvars2, _, _, rfl, sql, hsql, text,
    htext, rfl⟩ := h
  cases hfirst
  cases hvars1
  cases hvars2
  refine ⟨schema, name, sql, text, asText_ok.1 hschema, asText_ok.1 hname, hsql, htext, ?_, rfl⟩
  exact Value.putAt_putAt ..

def keepStatements (schema : String) (n : Nat) : OutputItem → List Value
  | .table t => [.text (keepText (keptName schema n t.dbObjectName).display t.name.display)]
  | .var _ => []

theorem statementText_outputAfter (schema : String) (n : Nat) (t : OutputTable) : statementText (outputAfter schema n (.table t)) =
      .ok (keepText (keptName schema n t.dbObjectName).display t.name.display) := by
  have hsql : (outputAfter schema n (.table t)).entry "sql" = .ok (.text outputTemplate) :=
    (outputAfter_sameBut schema n t).entry (by decide)
  rw [statementText, hsql, vars_outputAfter]
  exact fillWith_outputTemplate _ _

theorem draftFreePort_run {item sentPort : Value} (h : draftFreePort c place item sentPort s = .ok u s') :
    ∃ t b, HasDrafted s.layers s.statements t ∧ item.has "sql_vars" = .ok b ∧
      (if b then keepTable c place item else pure ()) t = .ok u s' := by
  have hrest : ∀ {r : DraftState}, HasDrafted s.layers s.statements r → (do
        draftExtras c sentPort item
        if ← item.has "sql_vars" then keepTable c place item : DraftStep Unit) r = .ok u s' →
      ∃ t b, HasDrafted s.layers s.statements t ∧ item.has "sql_vars" = .ok b ∧
        (if b then keepTable c place item else pure ()) t = .ok u s' := by
    intro r hr hrun
    obtain ⟨_, t, hextras, hrun⟩ := run_bind_ok.1 hrun
    obtain ⟨b, hb, hrun⟩ := run_lift_bind_ok.1 hrun
    exact ⟨t, b, framed_hasDrafted.draftExtras _ _ hextras hr, hb, hrun⟩
  simp only [draftFreePort] at h
  obtain ⟨_, t1, hport, h⟩ := run_bind_ok.1 h
  have ht1 : HasDrafted s.layers s.statements t1 := keeps_addOutPort _ hport ⟨rfl, rfl⟩
  obtain ⟨b, -, h⟩ := run_lift_bind_ok.1 h
  cases b with
  | true =>
    rw [if_pos rfl] at h
    obtain ⟨_, t2, hvalue, h⟩ := run_bind_ok.1 h
    exact hrest (keeps_addPortValue _ _ _ hvalue ht1) h
  | false => exact hrest ht1 h

def Named (schema : String) (n : Nat) (o : OutputItem) : Prop :=
  ∀ t, o = .table t → ∃ name, keptName schema n t.dbObjectName = .text name

theorem draftOutput_run (hc : ∀ n, c.schema = .text n → n = schema) {o : OutputItem}
    (h : draftOutput c place (outputAfter schema n o) s = .ok u s') (hl : s.layers.at? place = some (outputAfter schema n o)) :
    s'.layers = s.layers.putAt place (outputAfter schema (n + 1) o) ∧
      s'.statements = s.statements ++ keepStatements schema (n + 1) o ∧ Named schema n o := by
  simp only [draftOutput, run_parts] at h
  obtain ⟨name, -, links, -, _, t, hlinks, port, -, h⟩ := h
  have ht : HasDrafted s.layers s.statements t := by
    refine Keeps.forM (fun k _ => ?_) hlinks ⟨rfl, rfl⟩
    exact .lift fun _ _ => keeps_draftLink _ _ _ _
  obtain ⟨r, b, hr, hb, h⟩ := draftFreePort_run h
  obtain ⟨hrl, hrs⟩ : r.layers = s.layers ∧ r.statements = s.statements := ⟨hr.1.trans ht.1, hr.2.trans ht.2⟩
  cases o with
  | var v =>
    cases hb
    cases h
    refine ⟨?_, by rw [hrs, keepStatements, List.append_nil], fun t ht => by cases ht⟩
    rw [hrl]
    exact (Value.putAt_self hl).symm
  | table t =>
    have hvars := vars_outputAfter schema n t
    obtain ⟨fs, hfs, hlook⟩ := Value.entry_ok.1 hvars
    rw [hfs, Value.has_object, hlook] at hb
    cases hb
    obtain ⟨sch, table, sql, text, hsch, htable, hsql, htext, hlayers, hstatements⟩ := keepTable_run h hvars
    obtain rfl := hc sch hsch
    have hsql' : sql = .text outputTemplate := by
      have h' := (outputAfter_sameBut sch n t).entry (k := "sql") (by decide)
      exact ok_unique hsql h'
    have hkept : keptVars sch (n + 1) t = .list [.text (sch ++ "." ++ table), .text (sch ++ "." ++ table), t.name] := by
      rw [keptVars, keptName, htable]
      rfl
    subst hsql'
    rw [← hkept] at htext hlayers
    obtain rfl := ok_unique (fillWith_outputTemplate _ _) htext
    refine ⟨?_, by rw [hstatements, hrs, keepStatements], ?_⟩
    · rw [hlayers, hrl, Value.putAt_append hl, outputAfter_put]
    · intro t' ht'
      obtain rfl := OutputItem.table.inj ht'
      exact ⟨table, htable⟩

/-! ## All outputs and all elements -/

section Numbered

variable {ι : Type} {f : Value × Nat → DraftStep Unit} {a b : ι → Value} {R : List ι → DraftState → Prop}
  (hstep : ∀ {before x s u s'}, R before s → s.layers.at? (place ++ [.position before.length]) = some (a x) →
    f (a x, before.length) s = .ok u s' →
    R (before ++ [x]) s' ∧ s'.layers = s.layers.putAt (place ++ [.position before.length]) (b x))
include hstep

theorem numbered_run_from {after : List ι} : ∀ {before : List ι} {s s' : DraftState} {u : Unit}, R before s →
      s.layers.at? place = some (.list (before.map b ++ after.map a)) →
      ((after.map a).zipIdx before.length).forM f s = .ok u s' →
      R (before ++ after) s' ∧ s'.layers = s.layers.putAt place (.list ((before ++ after).map b)) := by
  induction after with
  | nil =>
    intro before s s' u hs hl h
    cases h
    rw [List.append_nil]
    rw [List.map_nil, List.append_nil] at hl
    exact ⟨hs, (Value.putAt_self hl).symm⟩
  | cons x after ih =>
    intro before s s' u hs hl h
    rw [List.map_cons, List.zipIdx_cons] at h
    obtain ⟨_, t, hx, h⟩ := forM_cons_ok.1 h
    have hat : s.layers.at? (place ++ [.position before.length]) = some (a x) := by
      rw [Value.at?_append, hl]
      simp [Value.at?]
    obtain ⟨ht, hlayers⟩ := hstep hs hat hx
    -- the member at this position is replaced in the list
    have hput : t.layers = s.layers.putAt place (.list ((before ++ [x]).map b ++ after.map a)) := by
      have hlist : (Value.list (before.map b ++ (x :: after).map a)).putAt [.position before.length] (b x) =
          .list ((before.map b ++ a x :: after.map a).modify (before.map b).length fun _ => b x) := by
        rw [List.length_map]
        rfl
      rw [hlayers, Value.putAt_append hl, hlist, modify_append, List.map_append, List.append_assoc]
      rfl
    have hnext := @ih (before ++ [x]) t s' u ht (by rw [hput]; exact Value.at?_putAt_self _ hl) (by rw [List.length_append]; exact h)
    rw [List.append_assoc, List.singleton_append] at hnext
    rw [hput, Value.putAt_putAt] at hnext
    exact hnext

theorem numbered_run {xs : List ι} (hs : R [] s) (hl : s.layers.at? place = some (.list (xs.map a)))
    (h : (xs.map a).zipIdx.forM f s = .ok u s') : R xs s' ∧ s'.layers = s.layers.putAt place (.list (xs.map b)) :=
  numbered_run_from hstep hs hl h

end Numbered

def inputStatement (item : Value) : Outcome Value := do
  if (← item.entry "hasrel").isTruthy then item.entry "sql" else return .text (← statementText item)

def callStatement (schema item : Value) : Outcome Value := do
  let name ← (← item.entry "sql_vars").item (.int 0)
  let schema ← schema.asText
  let procedure := schema ++ ".\"" ++ upperText (← name.asTextReceiver) ++ "\""
  return .text (← fillWith (← item.entry "sql") (.ok (.list [.text procedure])))

def AddsStatement (statement : Outcome Value) (x : DraftStep Unit) : Prop :=
  ∀ ⦃s u s'⦄, x s = .ok u s' → s'.layers = s.layers ∧ ∃ v, statement = .ok v ∧ s'.statements = s.statements ++ [v]

theorem draftInput_adds (c : ElementContext) (item : Value) : AddsStatement (inputStatement item) (draftInput c item) := by
  intro s u s' h
  simp only [draftInput] at h
  obtain ⟨related, hrelated, h⟩ := run_lift_bind_ok.1 h
  unfold inputStatement
  cases htrue : related.isTruthy with
  | true =>
    rw [htrue, if_pos rfl] at h
    simp only [run_parts, run_modify_ok, addStatement] at h
    obtain ⟨name, -, _, _, rfl, v, hv, _, t, rfl, h⟩ := h
    obtain ⟨hl, hs⟩ := framed_hasDrafted.trackInput _ h ⟨rfl, rfl⟩
    refine ⟨hl, v, bind_ok.2 ⟨related, hrelated, ?_⟩, hs⟩
    rw [htrue]
    exact hv
  | false =>
    rw [htrue, if_neg Bool.false_ne_true] at h
    simp only [run_parts, run_modify_ok, addStatement] at h
    obtain ⟨text, htext, _, t, rfl, h⟩ := h
    obtain ⟨hl, hs⟩ := framed_hasDrafted.trackInput _ h ⟨rfl, rfl⟩
    refine ⟨hl, .text text, bind_ok.2 ⟨related, hrelated, ?_⟩, hs⟩
    rw [htrue]
    exact bind_ok.2 ⟨text, htext, rfl⟩

theorem draftBody_adds (c : ElementContext) (item : Value) : AddsStatement (callStatement c.schema item) (draftBody c item) := by
  intro s u s' h
  simp only [draftBody, run_parts, run_modify_ok, addStatement] at h
  obtain ⟨vars, hvars, name, hname, schema, hschema, text, htext, sql, hsql, filled, hfilled, rfl⟩ := h
  refine ⟨rfl, .text filled, ?_, rfl⟩
  simp only [callStatement, bind_ok, pure_ok]
  exact ⟨vars, hvars, name, hname, schema, hschema, text, htext, sql, hsql, filled, hfilled, rfl⟩

theorem forM_adds {α : Type} {g : α → Outcome Value} {f : α → DraftStep Unit} (hf : ∀ x, AddsStatement (g x) (f x)) {xs : List α} :
    ∀ {s s' : DraftState} {u : Unit}, xs.forM f s = .ok u s' →
      s'.layers = s.layers ∧ ∃ vs, xs.mapM g = .ok vs ∧ s'.statements = s.statements ++ vs := by
  induction xs with
  | nil =>
    intro s s' u h
    cases h
    exact ⟨rfl, [], rfl, by simp⟩
  | cons x xs ih =>
    intro s s' u h
    obtain ⟨_, t, hx, h⟩ := forM_cons_ok.1 h
    obtain ⟨hl, v, hv, hs⟩ := hf x hx
    obtain ⟨hl', vs, hvs, hs'⟩ := ih h
    refine ⟨hl'.trans hl, v :: vs, ?_, by rw [hs', hs]; simp⟩
    rw [List.mapM_cons, bind_ok]
    exact ⟨v, hv, bind_ok.2 ⟨vs, hvs, rfl⟩⟩

def KeepsDrafted (schema : String) (n : Nat) (statements : List Value) (outputs : List OutputItem) (s : DraftState) :
    Prop :=
  s.statements = statements ++ outputs.flatMap (keepStatements schema (n + 1)) ∧ ∀ o ∈ outputs, Named schema n o

theorem KeepsDrafted.step (hc : ∀ n, c.schema = .text n → n = schema) {statements : List Value} {before : List OutputItem}
    {o : OutputItem} (hs : KeepsDrafted schema n statements before s)
    (hl : s.layers.at? (place ++ [.position before.length]) = some (outputAfter schema n o))
    (h : draftOutput c (place ++ [.position before.length]) (outputAfter schema n o) s = .ok u s') :
    KeepsDrafted schema n statements (before ++ [o]) s' ∧
      s'.layers = s.layers.putAt (place ++ [.position before.length]) (outputAfter schema (n + 1) o) := by
  obtain ⟨hlayers, hstatements, hnamed⟩ := draftOutput_run hc h hl
  refine ⟨⟨?_, fun o' ho' => ?_⟩, hlayers⟩
  · rw [hstatements, hs.1]
    simp
  · rcases List.mem_append.1 ho' with ho' | ho'
    · exact hs.2 o' ho'
    · obtain rfl := List.mem_singleton.1 ho'
      exact hnamed

/-- The statements that an element is drafted with: those of its inputs and calls, which do not change, and those that keep its
tables, with the schema before their names so many times. -/
def DraftedWith (schema : Value) (name : String) (n : Nat) (e : Element) (statements : List Value) : Prop :=
  ∃ ins calls, (e.inputs.map InputItem.toValue).mapM inputStatement = .ok ins ∧
    (e.body.map BodyItem.toValue).mapM (callStatement schema) = .ok calls ∧
    statements = ins ++ calls ++ e.outputs.flatMap (keepStatements name n)

def partsAfter (schema : String) (n : Nat) (e : Element) : Parts where
  inputs := .list (e.inputs.map InputItem.toValue)
  body := .list (e.body.map BodyItem.toValue)
  outputs := .list (e.outputs.map (outputAfter schema n))

theorem draftParts_run (hc : ∀ n, c.schema = .text n → n = schema) {e : Element}
    (h : draftParts c place (partsAfter schema n e) s = .ok u s')
    (hl : s.layers.at? place = some (.list (e.outputs.map (outputAfter schema n)))) :
    s'.layers = s.layers.putAt place (.list (e.outputs.map (outputAfter schema (n + 1)))) ∧ (∀ o ∈ e.outputs, Named schema n o) ∧
      ∃ statements, DraftedWith c.schema schema (n + 1) e statements ∧ s'.statements = s.statements ++ statements := by
  simp only [draftParts, partsAfter, Value.numbered, Value.members, run_parts] at h
  obtain ⟨_, hms, _, t1, hins, _, hbs, _, t2, hcalls, ps, hps, h⟩ := h
  cases hms
  cases hbs
  cases hps
  obtain ⟨hl1, ins, hin, hs1⟩ := forM_adds (draftInput_adds c) hins
  obtain ⟨hl2, calls, hcall, hs2⟩ := forM_adds (draftBody_adds c) hcalls
  have hlayers : t2.layers = s.layers := hl2.trans hl1
  have hstart : KeepsDrafted schema n t2.statements [] t2 := by
    refine ⟨?_, by simp⟩
    rw [List.flatMap_nil, List.append_nil]
  obtain ⟨hs', hl'⟩ := numbered_run (KeepsDrafted.step hc) hstart (by rw [hlayers]; exact hl) h
  refine ⟨by rw [hl', hlayers], hs'.2, _, ⟨ins, calls, hin, hcall, rfl⟩, ?_⟩
  rw [hs'.1, hs2, hs1]
  simp

theorem sql_elementAfter (schema : String) (n : Nat) (e : Element) : ∃ statements, (elementAfter schema n e).entry "sql" = .ok statements ∧
      Parts.of statements = .ok (partsAfter schema n e) := by
  have hat : (elementAfter schema n e).at? [.key "sql"] = some _ :=
    (Value.at?_modifyAt_append _ [.key "sql"] [.key "output"] e.toValue).trans (by rw [Value.entry_eq_ok_iff.1 (entry_sql e)]; rfl)
  exact ⟨_, Value.entry_eq_ok_iff.2 hat, rfl⟩

theorem draftElement_run {settings : Settings} (hc : ∀ v, settings.entry Setting.schema = .ok (.text v) → v = schema)
    {options : GraphOptions} {i : Nat} {e : Element} (h : draftElement settings options i (elementAfter schema n e) s = .ok u s')
    (hl : s.layers.at? [.key consumptionKey, .position i] = some (elementAfter schema n e)) :
    s'.layers = s.layers.putAt [.key consumptionKey, .position i] (elementAfter schema (n + 1) e) ∧ (∀ o ∈ e.outputs, Named schema n o) ∧
      ∃ v, settings.entry Setting.schema = .ok v ∧ DraftedWith v schema (n + 1) e s'.statements := by
  obtain ⟨statements, hsql, hparts⟩ := sql_elementAfter schema n e
  simp only [draftElement, run_parts, run_modify_ok, hsql, Except.ok.injEq] at h
  obtain ⟨_, _, rfl, groups, -, name, -, label, -, _, rfl, p, hp, sch, hsch, _, t1, hrun, _, t2, hoperator, gs, -, hjoin⟩ := h
  obtain rfl := ok_unique hparts hp
  have hplace : s.layers.at? ([.key consumptionKey, .position i] ++ [.key "sql", .key "output"]) =
      some (.list (e.outputs.map (outputAfter schema n))) := by
    rw [Value.at?_append, hl]
    exact Value.at?_putAt_self _ (at?_output e)
  obtain ⟨hl1, hnamed, drafted, hdrafted, hs1⟩ := draftParts_run (fun v hv => hc v (hsch.trans (congrArg _ hv))) hrun hplace
  have ht2 := framed_hasDrafted.draftOperator _ hoperator ⟨rfl, rfl⟩
  obtain ⟨hlayers, hstatements⟩ := ht2
  obtain ⟨graphs, rfl⟩ := joinGraphs_graphs hjoin
  refine ⟨?_, hnamed, sch, hsch, ?_⟩
  · rw [hlayers, hl1]
    exact (Value.putAt_append hl [.key "sql", .key "output"] _).trans (by rw [elementAfter_put])
  · rw [hstatements, hs1]
    exact hdrafted

def AllNamed (schema : String) (n : Nat) (es : List Element) : Prop := ∀ e ∈ es, ∀ o ∈ e.outputs, Named schema n o

theorem draftAll_run {settings : Settings} (hc : ∀ v, settings.entry Setting.schema = .ok (.text v) → v = schema) {options : GraphOptions}
    {es : List Element} (h : draftAll settings options s = .ok u s')
    (hl : s.layers.entry consumptionKey = .ok (.list (es.map (elementAfter schema n)))) :
    AllNamed schema n es ∧ s'.layers = s.layers.putAt [.key consumptionKey] (.list (es.map (elementAfter schema (n + 1)))) := by
  simp only [draftAll, run_parts, run_modify_ok] at h
  obtain ⟨_, hes, ps, hps, _, _, rfl, h⟩ := h
  obtain rfl := ok_unique hl hes
  cases hps
  have hstep : ∀ {before : List Element} {e : Element} {t : DraftState} {u : Unit} {t' : DraftState}, AllNamed schema n before →
      t.layers.at? ([.key consumptionKey] ++ [.position before.length]) = some (elementAfter schema n e) →
      (do if (elementAfter schema n e).isRecord then
            if ← (elementAfter schema n e).has "sql" then
              draftElement settings options before.length (elementAfter schema n e) : DraftStep Unit) t = .ok u t' →
      AllNamed schema n (before ++ [e]) ∧ t'.layers = t.layers.putAt ([.key consumptionKey] ++ [.position before.length])
          (elementAfter schema (n + 1) e) := by
    intro before e t u t' hbefore hat hrun
    obtain ⟨statements, hsql, -⟩ := sql_elementAfter schema n e
    obtain ⟨fs, hfs, hlook⟩ := Value.entry_ok.1 hsql
    have hhas : (elementAfter schema n e).has "sql" = .ok true := by
      rw [hfs, Value.has_object, hlook]
      rfl
    have hrecord : (elementAfter schema n e).isRecord = true := by
      rw [hfs]
      rfl
    rw [hrecord, hhas] at hrun
    obtain ⟨hlayers, hnamed, -⟩ := draftElement_run hc hrun hat
    refine ⟨fun e' he' => ?_, hlayers⟩
    rcases List.mem_append.1 he' with he' | he'
    · exact hbefore e' he'
    · obtain rfl := List.mem_singleton.1 he'
      exact hnamed
  have hat : ({ s with graphs := [] } : DraftState).layers.at? [.key consumptionKey] = some _ := Value.entry_eq_ok_iff.1 hl
  have hstart : AllNamed schema n [] := by simp [AllNamed]
  exact numbered_run hstep hstart hat h

end TraceArtifacts.Graph
