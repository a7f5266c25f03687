import TraceArtifacts.Proofs.SchemaPrefix
import TraceArtifacts.Proofs.Signatures
import TraceArtifacts.Proofs.Writing

/-!
# Proofs: generating again

Graphs and containers may be generated any number of times, in any order.
-/

namespace TraceArtifacts.Graph

variable {options : GraphOptions} {es : List Element} {texts : List String} {m n : Nat}
  {last : Option String} {schema : Outcome Value} {r s s' t : Session} {u : Unit} {path v : Value}

/-! ## Names grow -/

def inSchema (schema : String) : Nat → String → String
  | 0, name => name
  | n + 1, name => schema ++ "." ++ inSchema schema n name

theorem keptName_text (schema : String) (n : Nat) (name : String) : keptName schema n (.text name) = .text (inSchema schema n name) := by
  induction n with
  | zero => rfl
  | succ n ih =>
    rw [keptName, ih]
    rfl

theorem length_inSchema (schema : String) (n : Nat) (name : String) :
    (inSchema schema n name).length = n * (schema.length + 1) + name.length := by
  induction n with
  | zero => simp [inSchema]
  | succ n ih =>
    have hdot : ".".length = 1 := by decide
    rw [inSchema, String.length_append, String.length_append, ih, hdot, Nat.succ_mul]
    omega

theorem length_of_filled_eq {a b c d table table' interface : String}
    (h : a ++ table ++ b ++ table ++ c ++ interface ++ d = a ++ table' ++ b ++ table' ++ c ++ interface ++ d) :
    table.length = table'.length := by
  have hlen := congrArg String.length h
  simp only [String.length_append] at hlen
  omega

theorem keepText_inSchema_inj {schema name interface : String}
    (h : keepText (inSchema schema n name) interface = keepText (inSchema schema m name) interface) : n = m := by
  have hlen := length_of_filled_eq h
  rw [length_inSchema, length_inSchema] at hlen
  exact Nat.eq_of_mul_eq_mul_right (Nat.succ_pos _) (Nat.add_right_cancel hlen)

def KeepsTable (outputs : List OutputItem) : Prop := ∃ t, .table t ∈ outputs

theorem KeepsTable.of_cons_var {v : OutputVariable} {os : List OutputItem} (h : KeepsTable (.var v :: os)) : KeepsTable os := by
  obtain ⟨t, ht⟩ := h
  rcases List.mem_cons.1 ht with ht | ht
  · cases ht
  · exact ⟨t, ht⟩

theorem outputAfter_of_no_table (schema : String) (n m : Nat) {o : OutputItem} (h : ∀ t, o ≠ .table t) :
    outputAfter schema n o = outputAfter schema m o := by
  cases o with
  | table t => exact absurd rfl (h t)
  | var v => rfl

theorem map_outputAfter_of_no_table (schema : String) (n m : Nat) {os : List OutputItem} (h : ¬ KeepsTable os) :
    os.map (outputAfter schema n) = os.map (outputAfter schema m) := by
  refine List.map_congr_left fun o ho => outputAfter_of_no_table schema n m ?_
  rintro t rfl
  exact h ⟨t, ho⟩

theorem outputTexts_table {schema : String} {t : OutputTable} {rest : List Value}
    (h : Container.outputTexts last (outputAfter schema n (.table t) :: rest) = .ok texts) :
    ∃ texts', texts = keepText (keptName schema n t.dbObjectName).display t.name.display :: texts' ∧
      Container.outputTexts (some (keepText (keptName schema n t.dbObjectName).display t.name.display)) rest = .ok texts' := by
  have hhas := Value.has_of_entry (vars_outputAfter schema n t)
  obtain ⟨b, hb, h⟩ := bind_ok.1 h
  obtain rfl := ok_unique hhas hb
  rw [if_pos rfl] at h
  obtain ⟨text, htext, h⟩ := bind_ok.1 h
  obtain rfl := ok_unique (statementText_outputAfter schema n t) htext
  obtain ⟨texts', hrest, h⟩ := bind_ok.1 h
  exact ⟨texts', (Except.ok.inj h).symm, hrest⟩

theorem outputTexts_var {v : OutputVariable} {rest : List Value} (h : Container.outputTexts last (v.toValue :: rest) = .ok texts) :
    ∃ text texts', texts = text :: texts' ∧ Container.outputTexts (some text) rest = .ok texts' := by
  obtain ⟨b, hb, h⟩ := bind_ok.1 h
  cases hb
  cases last with
  | none => cases h
  | some text =>
    obtain ⟨_, htext, h⟩ := bind_ok.1 h
    cases htext
    obtain ⟨texts', hrest, h⟩ := bind_ok.1 h
    exact ⟨text, texts', (Except.ok.inj h).symm, hrest⟩

section Named

variable {schema : String} {os : List OutputItem} (hos : ∀ o ∈ os, Named schema 0 o)
include hos

theorem keepStatements_inj (h : os.flatMap (keepStatements schema n) = os.flatMap (keepStatements schema m)) : n = m ∨ ¬ KeepsTable os := by
  induction os with
  | nil => exact .inr (by simp [KeepsTable])
  | cons o os ih =>
    cases o with
    | table t =>
      obtain ⟨name, hname⟩ := hos (.table t) (.head _) t rfl
      change t.dbObjectName = .text name at hname
      simp only [List.flatMap_cons, keepStatements, hname, keptName_text, List.singleton_append, List.cons.injEq, Value.text.injEq] at h
      exact .inl (keepText_inSchema_inj h.1)
    | var v =>
      refine (ih (fun o ho => hos o (.tail _ ho)) h).imp_right fun hno hyes => ?_
      exact hno hyes.of_cons_var

theorem outputTexts_inj : ∀ {last last' : Option String} {texts : List String},
    Container.outputTexts last (os.map (outputAfter schema n)) = .ok texts →
    Container.outputTexts last' (os.map (outputAfter schema m)) = .ok texts → n = m ∨ ¬ KeepsTable os := by
  induction os with
  | nil => exact fun _ _ => .inr (by simp [KeepsTable])
  | cons o os ih =>
    intro last last' texts h h'
    cases o with
    | table t =>
      obtain ⟨name, hname⟩ := hos (.table t) (.head _) t rfl
      change t.dbObjectName = .text name at hname
      obtain ⟨rest, rfl, -⟩ := outputTexts_table h
      obtain ⟨rest', heq, -⟩ := outputTexts_table h'
      rw [hname, keptName_text, keptName_text] at heq
      exact .inl (keepText_inSchema_inj (List.cons.inj heq).1)
    | var v =>
      obtain ⟨text, rest, rfl, hrest⟩ := outputTexts_var h
      obtain ⟨text', rest', heq, hrest'⟩ := outputTexts_var h'
      obtain ⟨-, rfl⟩ := List.cons.inj heq
      refine (ih (fun o ho => hos o (.tail _ ho)) hrest hrest').imp_right fun hno hyes => ?_
      exact hno hyes.of_cons_var

end Named

section Elements

variable {schema : String} {e : Element}

theorem partsAfter_of_no_table (n m : Nat) (h : ¬ KeepsTable e.outputs) : partsAfter schema n e = partsAfter schema m e := by
  rw [partsAfter, partsAfter, map_outputAfter_of_no_table schema n m h]

theorem elementAfter_of_no_table (n m : Nat) (h : ¬ KeepsTable e.outputs) : elementAfter schema n e = elementAfter schema m e := by
  rw [elementAfter, elementAfter, map_outputAfter_of_no_table schema n m h]

theorem DraftedWith.of_no_table {statements : List Value} (hd : DraftedWith v schema n e statements) (m : Nat)
    (h : ¬ KeepsTable e.outputs) : DraftedWith v schema m e statements := by
  obtain ⟨ins, calls, hin, hcall, rfl⟩ := hd
  have hkeep : e.outputs.flatMap (keepStatements schema n) = e.outputs.flatMap (keepStatements schema m) := by
    refine List.flatMap_congr fun o ho => ?_
    cases o with
    | table t => exact absurd ⟨t, ho⟩ h
    | var v => rfl
  exact ⟨ins, calls, hin, hcall, by rw [hkeep]⟩

variable (he : ∀ o ∈ e.outputs, Named schema 0 o)
include he

theorem DraftedWith.inj {statements : List Value} (h : DraftedWith v schema n e statements) (h' : DraftedWith v schema m e statements) :
    n = m ∨ ¬ KeepsTable e.outputs := by
  obtain ⟨ins, calls, hin, hcall, rfl⟩ := h
  obtain ⟨ins', calls', hin', hcall', heq⟩ := h'
  obtain rfl := ok_unique hin hin'
  obtain rfl := ok_unique hcall hcall'
  exact keepStatements_inj he (List.append_cancel_left heq)

theorem elementTexts_inj (h : Container.elementTexts last (partsAfter schema n e) = .ok texts)
    (h' : Container.elementTexts last (partsAfter schema m e) = .ok texts) : n = m ∨ ¬ KeepsTable e.outputs := by
  simp only [Container.elementTexts, partsAfter, Value.members, bind_ok, pure_ok, Except.ok.injEq, exists_eq_left'] at h h'
  obtain ⟨ins, hin, calls, hcall, outs, hout, rfl⟩ := h
  obtain ⟨ins', hin', calls', hcall', outs', hout', heq⟩ := h'
  obtain rfl := ok_unique hin hin'
  obtain rfl := ok_unique hcall hcall'
  obtain rfl := List.append_cancel_left heq
  exact outputTexts_inj he hout hout'

end Elements

/-! ## Sessions -/

def schemaText : Outcome Value → String
  | .ok (.text v) => v
  | _ => ""

/-- Settings with a schema, whose layers list these elements after a number of generations of graphs. -/
structure ListsAfter (schema : Outcome Value) (es : List Element) (n : Nat) (st : Settings) : Prop where
  schema_eq : st.entry Setting.schema = schema
  listed : ∃ layers, st.entry Setting.layers = .ok layers ∧
    layers.entry consumptionKey = .ok (.list (es.map (elementAfter (schemaText schema) n)))
  named : n ≠ 0 → AllNamed (schemaText schema) 0 es

theorem unnoted_listsAfter (schema : Outcome Value) (es : List Element) (n : Nat) : Container.Unnoted (ListsAfter schema es n) := by
  rintro st k v hk ⟨hschema, ⟨layers, hl, hes⟩, hnamed⟩
  exact ⟨Container.unnoted_entry (by decide) _ hk hschema, ⟨layers, Container.unnoted_entry (by decide) _ hk hl, hes⟩, hnamed⟩

theorem baseless_listsAfter (schema : Outcome Value) (es : List Element) (n : Nat) : Container.Baseless (ListsAfter schema es n) := by
  rintro st layers place v hl ⟨hschema, ⟨layers', hl', hes⟩, hnamed⟩
  obtain rfl := ok_unique hl hl'
  refine ⟨(Settings.entry_set_ne (by decide) st _).trans hschema, ⟨_, Settings.entry_set_self .., ?_⟩, hnamed⟩
  have hapart : Place.Apart (.key baseKey :: place) [.key consumptionKey] := .inl (by decide)
  rw [Value.entry_eq_ok_iff] at hes ⊢
  exact (Value.at?_modifyAt_of_apart _ hapart layers).trans hes

def prepareGraphs (container : Bool) : Job Unit := do
  noteDirectory Setting.graphPath "datahub"
  if container then Container.generate true false true
  renewDirectory Setting.graphPath

theorem generate_eq (container : Bool) (options : GraphOptions) : generate container options = (do
      prepareGraphs container
      draftAndWrite (← Job.setting Setting.graphPath) options) := by
  cases container <;> simp [generate, prepareGraphs]

def WritesGraphs (container : Bool) (options : GraphOptions) (path : Value) (graphs : GraphDrafts) (s s' : Session) :
    Prop :=
  ∃ r t, prepareGraphs container s = .ok () r ∧ r.settings.entry Setting.graphPath = .ok path ∧
    drafting (draftAll r.settings options) r = .ok graphs t ∧ writeGraphs path graphs t = .ok () s'

theorem generate_ok {container : Bool} (h : generate container options s = .ok u s') :
    ∃ path graphs, WritesGraphs container options path graphs s s' := by
  rw [generate_eq] at h
  obtain ⟨_, r, hprepare, h⟩ := run_bind_ok.1 h
  simp only [Job.setting, draftAndWrite, run_parts] at h
  obtain ⟨path, hpath, graphs, t, hdraft, hwrite⟩ := h
  exact ⟨path, graphs, _, t, hprepare, hpath, hdraft, hwrite⟩

section Keeping

variable {P : Settings → Prop}

theorem keeps_noteDirectory (hP : Container.Unnoted P) (name : String) : Keeps (WithSettings P) (noteDirectory Setting.graphPath name) :=
  Keeps.bind (keeps_get.bind fun _ => keeps_lift _) fun _ => Container.keeps_setSetting hP (by decide) _

theorem keeps_renewDirectory (key : String) : Keeps (WithSettings P) (renewDirectory key) :=
  .setting fun _ => (keeps_removeDirectory _).bind fun _ => keeps_createDirectory _

theorem keeps_prepareGraphs (hnoted : Container.Unnoted P) (hbase : Container.Baseless P) (container : Bool) :
    Keeps (WithSettings P) (prepareGraphs container) := by
  refine (keeps_noteDirectory hnoted _).bind fun _ => ?_
  cases container with
  | false => exact keeps_renewDirectory _
  | true =>
    exact (keeps_containerCall hnoted hbase (.container true false true)).bind fun _ => keeps_renewDirectory _

theorem keeps_writeGraphs (path : Value) (graphs : GraphDrafts) : Keeps (WithSettings P) (writeGraphs path graphs) :=
  Keeps.forM fun _ _ => .lift fun _ _ => .lift fun _ _ => keeps_writeFile _ _ _

end Keeping

section Lists

theorem ListsAfter.prepareGraphs {container : Bool} (hs : ListsAfter schema es n s.settings)
    (h : Graph.prepareGraphs container s = .ok u s') : ListsAfter schema es n s'.settings :=
  keeps_prepareGraphs (unnoted_listsAfter schema es n) (baseless_listsAfter schema es n) _ h hs

theorem ListsAfter.call {c : ContainerCall} (hs : ListsAfter schema es n s.settings) (h : c.run s = .ok u s') :
    ListsAfter schema es n s'.settings :=
  keeps_containerCall (unnoted_listsAfter schema es n) (baseless_listsAfter schema es n) c h hs

theorem drafting_lists {graphs : GraphDrafts} (h : drafting (draftAll s.settings options) s = .ok graphs s')
    (hs : ListsAfter schema es n s.settings) :
    AllNamed (schemaText schema) n es ∧ ∃ layers, s.settings.entry Setting.layers = .ok layers ∧
      layers.entry consumptionKey = .ok (.list (es.map (elementAfter (schemaText schema) n))) ∧
      s'.settings = s.settings.set Setting.layers
        (layers.putAt [.key consumptionKey] (.list (es.map (elementAfter (schemaText schema) (n + 1))))) := by
  obtain ⟨hschema, ⟨layers, hl, hes⟩, -⟩ := hs
  obtain ⟨l, d, hl', hd, -, hset⟩ := drafting_run h
  obtain rfl := ok_unique hl hl'
  have hc : ∀ v, s.settings.entry Setting.schema = .ok (.text v) → v = schemaText schema := by
    intro v hv
    rw [← hschema, hv]
    rfl
  obtain ⟨hall, hlayers⟩ := draftAll_run hc hd hes
  exact ⟨hall, layers, hl, hes, hlayers ▸ hset⟩

theorem drafting_after {graphs : GraphDrafts} (h : drafting (draftAll s.settings options) s = .ok graphs s')
    (hs : ListsAfter schema es n s.settings) : ListsAfter schema es (n + 1) s'.settings := by
  obtain ⟨hall, layers, -, hes, hset⟩ := drafting_lists h hs
  rw [hset]
  refine ⟨(Settings.entry_set_ne (by decide) ..).trans hs.schema_eq, ⟨_, Settings.entry_set_self .., ?_⟩, fun _ => ?_⟩
  · exact Value.entry_eq_ok_iff.2 (Value.at?_putAt_self _ (Value.entry_eq_ok_iff.1 hes))
  · cases n with
    | zero => exact hall
    | succ n => exact hs.named (Nat.succ_ne_zero n)

theorem WritesGraphs.after {container : Bool} {graphs : GraphDrafts} (h : WritesGraphs container options path graphs s s')
    (hs : ListsAfter schema es n s.settings) : ListsAfter schema es (n + 1) s'.settings := by
  obtain ⟨r, t, hprepare, -, hdraft, hwrite⟩ := h
  have ht := drafting_after hdraft (hs.prepareGraphs hprepare)
  exact keeps_writeGraphs (P := ListsAfter schema es (n + 1)) _ _ hwrite ht

end Lists

inductive Generation where
  | graphs (container : Bool) (options : GraphOptions)
  | containers (call : ContainerCall)

def Generation.run : Generation → Job Unit
  | graphs container options => generate container options
  | containers call => call.run

def Generation.isGraphs : Generation → Bool
  | graphs .. => true
  | containers _ => false

theorem history_run {J : Settings → Prop} {history : List Generation}
    (hgraphs : ∀ {n container options path graphs s s'}, WritesGraphs container options path graphs s s' →
      ListsAfter schema es n s.settings → J s.settings → J s'.settings)
    (hcalls : ∀ {c : ContainerCall} {s u s'}, c.run s = .ok u s' → J s.settings → J s'.settings) :
    ∀ {n : Nat} {s t : Session} {u : Unit}, history.forM Generation.run s = .ok u t → ListsAfter schema es n s.settings →
      J s.settings → ListsAfter schema es (n + history.countP Generation.isGraphs) t.settings ∧ J t.settings := by
  induction history with
  | nil =>
    intro n s t u h hes hs
    cases h
    exact ⟨hes, hs⟩
  | cons g history ih =>
    intro n s t u h hes hs
    obtain ⟨_, r, hg, hrest⟩ := forM_cons_ok.1 h
    cases g with
    | graphs container options =>
      obtain ⟨path, graphs, hwrites⟩ := generate_ok hg
      rw [List.countP_cons_of_pos rfl, Nat.add_comm _ 1, ← Nat.add_assoc]
      exact ih hrest (hwrites.after hes) (hgraphs hwrites hes hs)
    | containers call =>
      rw [List.countP_cons_of_neg Bool.false_ne_true]
      exact ih hrest (hes.call hg) (hcalls hg hs)

theorem history_after {history : List Generation} (h : history.forM Generation.run s = .ok u t)
    (hs : ListsAfter schema es n s.settings) : ListsAfter schema es (n + history.countP Generation.isGraphs) t.settings :=
  (history_run (J := fun _ => True) (fun _ _ _ => trivial) (fun _ _ => trivial) h hs trivial).1

/-! ## Elements without tables -/

theorem setSettings_entry {st : Settings} {k : String} (h : st.entry k = .ok v) : Fields.set k v st = st :=
  Fields.set_eq_self (Value.need_ok.1 h)

theorem prepareGraphs_ok (h : prepareGraphs false s = .ok u r) : ∃ path, s.settings.text Setting.outputPath = .ok path ∧
      r.settings = s.settings.set Setting.graphPath (.text (joinPaths path "datahub")) := by
  obtain ⟨_, t, hnote, h⟩ := run_bind_ok.1 h
  simp only [noteDirectory, Job.settingText, Job.setSetting, run_parts, run_modify_ok] at hnote
  obtain ⟨path, hpath, rfl⟩ := hnote
  refine ⟨path, hpath, ?_⟩
  exact keeps_renewDirectory (P := fun st => st = Fields.set Setting.graphPath (.text (joinPaths path "datahub")) _)
    _ h rfl

theorem drafting_of_no_table {graphs : GraphDrafts} (hes : ∀ e ∈ es, ¬ KeepsTable e.outputs)
    (h : drafting (draftAll s.settings options) s = .ok graphs s') (hs : ListsAfter schema es n s.settings) : s'.settings = s.settings := by
  obtain ⟨-, layers, hl, hlist, hset⟩ := drafting_lists h hs
  have hsame : es.map (elementAfter (schemaText schema) (n + 1)) = es.map (elementAfter (schemaText schema) n) :=
    List.map_congr_left fun e he => elementAfter_of_no_table _ _ (hes e he)
  rw [hset, hsame, Value.putAt_self (Value.entry_eq_ok_iff.1 hlist)]
  exact setSettings_entry hl

theorem drafting_congr {step : DraftStep Unit} {r' : Session} {graphs graphs' : GraphDrafts} (h : drafting step s = .ok graphs s')
    (h' : drafting step r = .ok graphs' r') (hsettings : r.settings = s.settings) : graphs' = graphs := by
  obtain ⟨l, d, hl, hd, rfl, -⟩ := drafting_run h
  obtain ⟨l', d', hl', hd', rfl, -⟩ := drafting_run h'
  rw [hsettings] at hl'
  obtain rfl := ok_unique hl hl'
  obtain ⟨-, rfl⟩ := EStateM.Result.ok.inj (hd.symm.trans hd')
  rfl

theorem WritesGraphs.again (hes : ∀ e ∈ es, ¬ KeepsTable e.outputs) {path' : Value} {graphs graphs' : GraphDrafts} {t' : Session}
    (hs : ListsAfter schema es n s.settings) (h : WritesGraphs false options path graphs s t)
    (h' : WritesGraphs false options path' graphs' t t') : path' = path ∧ graphs' = graphs := by
  obtain ⟨r, w, hprepare, hpath, hdraft, hwrite⟩ := h
  obtain ⟨r', w', hprepare', hpath', hdraft', -⟩ := h'
  have hw : w.settings = r.settings := drafting_of_no_table hes hdraft (hs.prepareGraphs hprepare)
  have ht : t.settings = r.settings := keeps_writeGraphs (P := fun st => st = r.settings) _ _ hwrite hw
  obtain ⟨out, hout, hset⟩ := prepareGraphs_ok hprepare
  obtain ⟨out', hout', hset'⟩ := prepareGraphs_ok hprepare'
  have hsame : r'.settings = r.settings := by
    have houtput : r.settings.entry Setting.outputPath = s.settings.entry Setting.outputPath := by
      rw [hset]
      exact Settings.entry_set_ne (by decide) ..
    have heq : out' = out := by
      rw [Settings.text, ht, houtput] at hout'
      exact ok_unique hout' hout
    have hnoted : r.settings.entry Setting.graphPath = .ok (.text (joinPaths out "datahub")) := by
      rw [hset]
      exact Settings.entry_set_self ..
    rw [hset', ht, heq]
    exact setSettings_entry hnoted
  rw [hsame] at hpath'
  exact ⟨ok_unique hpath' hpath, drafting_congr hdraft (hsame ▸ hdraft') hsame⟩

/-! ## Processed sessions -/

theorem listsAfter_of_processed {P : BaseParts → Prop} {grouped final : Value} {relations : List Relation}
    (hp : Processed P s s' grouped final relations es) : ListsAfter (s'.settings.entry Setting.schema) es 0 s'.settings := by
  refine ⟨rfl, ⟨final, hp.layers, ?_⟩, fun hne => absurd rfl hne⟩
  rw [hp.listed, funext (elementAfter_zero _)]

theorem processTrace_lists {raiseOnError logStatements own : Bool} (h : processTrace raiseOnError logStatements own s = .ok u s')
    (hl : s.settings.entry Setting.layers = .ok (.object [])) :
    (s.trace.isTruthy = false ∧ s' = s) ∨ ∃ es, ListsAfter (s'.settings.entry Setting.schema) es 0 s'.settings := by
  refine (processTrace_processed storesAs_trivial h hl trivial).imp_right ?_
  rintro ⟨grouped, final, relations, elements, hp⟩
  exact ⟨elements, listsAfter_of_processed hp⟩

/-- What is generated when these elements have been made and graphs have been generated a number of times. -/
structure GeneratesAfter (schema : Outcome Value) (es : List Element) (n : Nat) (t : Session) : Prop where
  listed : ∃ layers, t.settings.entry Setting.layers = .ok layers ∧
    layers.entry consumptionKey = .ok (.list (es.map (elementAfter (schemaText schema) n)))
  drafted : ∀ e ∈ es, ∀ settings options i d d', Settings.entry settings Setting.schema = schema →
    d.layers.at? [.key consumptionKey, .position i] = some (elementAfter (schemaText schema) n e) →
    draftElement settings options i (elementAfter (schemaText schema) n e) d = .ok () d' →
    ∃ v, schema = .ok v ∧ DraftedWith v (schemaText schema) (n + 1) e d'.statements ∧
      (DraftedWith v (schemaText schema) 1 e d'.statements ↔ n = 0 ∨ ¬ KeepsTable e.outputs)
  written : ∀ e ∈ es, (∃ statements, (elementAfter (schemaText schema) n e).entry "sql" = .ok statements ∧
      Parts.of statements = .ok (partsAfter (schemaText schema) n e)) ∧
    ∀ last texts, Container.elementTexts last (partsAfter (schemaText schema) n e) = .ok texts →
      (Container.elementTexts last (partsOf e) = .ok texts ↔ n = 0 ∨ ¬ KeepsTable e.outputs)
  kept : ∀ e ∈ es, ∀ table, .table table ∈ e.outputs → statementText (outputAfter (schemaText schema) n (.table table)) =
      .ok (keepText (keptName (schemaText schema) n table.dbObjectName).display table.name.display)
  again : (∀ e ∈ es, ¬ KeepsTable e.outputs) → ∀ options t' t'', generate false options t = .ok () t' →
    generate false options t' = .ok () t'' → ∃ path graphs, WritesGraphs false options path graphs t t' ∧
      WritesGraphs false options path graphs t' t''

theorem partsAfter_zero (schema : String) (e : Element) : partsAfter schema 0 e = partsOf e := by
  rw [partsAfter, funext (outputAfter_zero schema)]
  rfl

theorem ListsAfter.generates (h : ListsAfter schema es n t.settings) : GeneratesAfter schema es n t := by
  refine ⟨h.listed, ?_, ?_, fun _ _ _ _ => statementText_outputAfter .., ?_⟩
  · intro e he settings options i d d' hschema hat hdraft
    have hc : ∀ v, settings.entry Setting.schema = .ok (.text v) → v = schemaText schema := by
      intro v hv
      rw [← hschema, hv]
      rfl
    obtain ⟨-, -, v, hv, hdrafted⟩ := draftElement_run hc hdraft hat
    refine ⟨v, hschema.symm.trans hv, hdrafted, fun hfirst => ?_, ?_⟩
    · by_cases hn : n = 0
      · exact .inl hn
      · exact (hdrafted.inj (h.named hn e he) hfirst).imp_left fun heq => by omega
    · rintro (rfl | hno)
      · exact hdrafted
      · exact hdrafted.of_no_table 1 hno
  · refine fun e he => ⟨sql_elementAfter .., fun last texts htexts => ?_⟩
    rw [← partsAfter_zero (schemaText schema) e]
    refine ⟨fun hfirst => ?_, ?_⟩
    · by_cases hn : n = 0
      · exact .inl hn
      · exact elementTexts_inj (h.named hn e he) htexts hfirst
    · rintro (rfl | hno)
      · exact htexts
      · rw [partsAfter_of_no_table 0 n hno]
        exact htexts
  · intro hes options t' t'' hgen hgen'
    obtain ⟨path, graphs, hwrites⟩ := generate_ok hgen
    obtain ⟨path', graphs', hwrites'⟩ := generate_ok hgen'
    obtain ⟨rfl, rfl⟩ := WritesGraphs.again hes h hwrites hwrites'
    exact ⟨_, _, hwrites, hwrites'⟩

/-- After a processed session has generated graphs and containers any number of times, the schema stands before the names of tables once
for each generation of graphs. -/
theorem processTrace_schema_grows {raiseOnError logStatements own : Bool} {s s' : Session} {u : Unit}
    (h : processTrace raiseOnError logStatements own s = .ok u s')
    (hl : s.settings.entry Setting.layers = .ok (.object [])) {history : List Generation} {t : Session} {v : Unit}
    (hrun : history.forM Generation.run s' = .ok v t) :
    (s.trace.isTruthy = false ∧ s' = s) ∨ ∃ es, GeneratesAfter (s'.settings.entry Setting.schema) es 0 s' ∧
      GeneratesAfter (s'.settings.entry Setting.schema) es (history.countP Generation.isGraphs) t := by
  refine (processTrace_lists h hl).imp_right ?_
  rintro ⟨es, hes⟩
  have ht := history_after hrun hes
  rw [Nat.zero_add] at ht
  exact ⟨es, hes.generates, ht.generates⟩

def outputPlace (i j : Nat) : Place :=
  [.key consumptionKey, .position i, .key "sql", .key "output", .position j]

section Listed

variable {schema : String} {layers : Value} (hes : layers.entry consumptionKey = .ok (.list (es.map (elementAfter schema n))))
include hes

theorem at?_outputPlace (i j : Nat) : layers.at? (outputPlace i j) = es[i]?.bind fun e => e.outputs[j]?.map (outputAfter schema n) := by
  have hsplit : outputPlace i j = [.key consumptionKey] ++ ([.position i] ++ ([.key "sql", .key "output"] ++ [.position j])) := rfl
  rw [hsplit, Value.at?_append, Value.entry_eq_ok_iff.1 hes, Option.bind_some, Value.at?_append]
  simp only [Value.at?, List.getElem?_map]
  cases es[i]? with
  | none => rfl
  | some e =>
    rw [Option.map_some, Option.bind_some, Option.bind_some, Option.bind_some, Value.at?_append, elementAfter,
      Value.at?_putAt_self _ (at?_output e)]
    simp [Value.at?]

theorem table_of_vars {i j : Nat} {vars : Value} (hvars : layers.at? (outputPlace i j ++ [.key "sql_vars"]) = some vars) :
    ∃ e table, es[i]? = some e ∧ e.outputs[j]? = some (.table table) := by
  rw [Value.at?_append, at?_outputPlace hes] at hvars
  obtain ⟨item, hitem, hvars⟩ := Option.bind_eq_some_iff.1 hvars
  obtain ⟨e, he, hitem⟩ := Option.bind_eq_some_iff.1 hitem
  obtain ⟨o, ho, rfl⟩ := Option.map_eq_some_iff.1 hitem
  cases o with
  | var v => cases hvars
  | table table => exact ⟨e, table, he, ho⟩

end Listed

def keepingSession : Session where
  settings := Settings.builtin ++ [(Setting.mergeStrategy, .int 1), (Setting.groupStrategy, .int 1),
    (Setting.layers, .object []), (Setting.entityContext, .text ""), (Setting.schema, .text "S"),
    (Setting.outputPath, .text "out"), (Setting.sourceMapping, .object [("S.D", .text "S.E")])]
  trace := .object [("RandomForestClassifier", .object
    [("F", .object [("sql", .list [.text "DO"]), ("function", .list []), ("input_tables", .list []),
      ("output_tables", .list [tracedTable "#M" "SELECT #M"]), ("output_vars", .list [])])])]

def plainOptions : GraphOptions := { serveResults := false, trackModels := false }

theorem keepingSession_generates : ∃ s t layers vars, processTrace true false true keepingSession = .ok () s ∧
    generate false plainOptions s = .ok () t ∧ s.settings.entry Setting.layers = .ok layers ∧
      layers.at? (outputPlace 0 0 ++ [.key "sql_vars"]) = some vars := by
  have hrun : succeedsWith (fun _ s => (s.settings.entry Setting.layers).toOption.any (fun layers =>
        (layers.at? (outputPlace 0 0 ++ [.key "sql_vars"])).isSome) &&
      succeedsWith (fun _ _ => true) (generate false plainOptions s))
      (processTrace true false true keepingSession) = true := by decide +kernel
  obtain ⟨_, s, hs, htest⟩ := exists_of_succeedsWith hrun
  obtain ⟨htable, htest⟩ := Bool.and_eq_true_iff.1 htest
  obtain ⟨_, t, ht, -⟩ := exists_of_succeedsWith htest
  cases hl : s.settings.entry Setting.layers with
  | error e =>
    rw [hl] at htable
    cases htable
  | ok layers =>
    rw [hl] at htable
    obtain ⟨vars, hvars⟩ := Option.isSome_iff_exists.1 htable
    exact ⟨s, t, layers, vars, hs, ht, hl, hvars⟩

/-- In the sample, graphs have been generated once when the procedure of its element is written. -/
theorem processTrace_schema_grows_sample : ∃ s t es, processTrace true false true keepingSession = .ok () s ∧
    generate false plainOptions s = .ok () t ∧ GeneratesAfter (s.settings.entry Setting.schema) es 1 t ∧
      ∃ e ∈ es, KeepsTable e.outputs := by
  obtain ⟨s, t, layers, vars, hs, ht, hl, hvars⟩ := keepingSession_generates
  have hrun : [Generation.graphs false plainOptions].forM Generation.run s = .ok () t := run_bind_ok.2 ⟨(), t, ht, rfl⟩
  obtain ⟨hempty, -⟩ | ⟨es, hfirst, hes⟩ := processTrace_schema_grows hs rfl hrun
  · exact absurd hempty (by decide)
  obtain ⟨layers', hl', hlist⟩ := hfirst.listed
  obtain rfl := ok_unique hl hl'
  obtain ⟨e, table, he, htable⟩ := table_of_vars hlist hvars
  exact ⟨s, t, es, hs, ht, hes, e, List.mem_of_getElem? he, table, List.mem_of_getElem? htable⟩

/-- In the sample, generating graphs changes the statement that keeps its table. -/
theorem generate_changes_statement : ∃ s t layers layers' item item' text text',
    processTrace true false true keepingSession = .ok () s ∧ generate false plainOptions s = .ok () t ∧
      s.settings.entry Setting.layers = .ok layers ∧ layers.at? (outputPlace 0 0) = some item ∧
      t.settings.entry Setting.layers = .ok layers' ∧ layers'.at? (outputPlace 0 0) = some item' ∧
      statementText item = .ok text ∧ statementText item' = .ok text' ∧ text ≠ text' := by
  obtain ⟨s, t, layers, vars, hs, ht, hl, hvars⟩ := keepingSession_generates
  obtain ⟨hempty, -⟩ | ⟨es, hes⟩ := processTrace_lists hs rfl
  · exact absurd hempty (by decide)
  obtain ⟨path, graphs, hwrites⟩ := generate_ok ht
  have hes' := hwrites.after hes
  obtain ⟨l, hl', hlist⟩ := hes.listed
  obtain rfl := ok_unique hl hl'
  obtain ⟨layers', hlayers', hlist'⟩ := hes'.listed
  obtain ⟨e, table, he, htable⟩ := table_of_vars hlist hvars
  obtain ⟨name, hname⟩ := hes'.named (by decide) e (List.mem_of_getElem? he) _ (List.mem_of_getElem? htable) table rfl
  change table.dbObjectName = .text name at hname
  have htext : ∀ n, statementText (outputAfter (schemaText (s.settings.entry Setting.schema)) n (.table table)) =
      .ok (keepText (inSchema (schemaText (s.settings.entry Setting.schema)) n name) table.name.display) := by
    intro n
    rw [statementText_outputAfter, hname, keptName_text]
    rfl
  refine ⟨s, t, layers, layers', _, _, _, _, hs, ht, hl, ?_, hlayers', ?_, htext 0, htext 1, fun heq => ?_⟩
  · rw [at?_outputPlace hlist, he, Option.bind_some, htable]
    rfl
  · rw [at?_outputPlace hlist', he, Option.bind_some, htable]
    rfl
  · exact absurd (keepText_inSchema_inj heq) (by decide)

end TraceArtifacts.Graph
