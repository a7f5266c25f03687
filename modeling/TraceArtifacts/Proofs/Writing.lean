import TraceArtifacts.Container.Remote
import TraceArtifacts.Proofs.Consumption
import TraceArtifacts.Proofs.Files

/-!
# Proofs: what writing files leaves as it is

Jobs that write files change the tree and no settings, so whatever holds of the settings before them holds after them.
-/

namespace TraceArtifacts

variable {J : Session → Prop} {t t' : Session} {P : Settings → Prop} {k name : String} {element elementName item object path : Value}

def WithSettings (P : Settings → Prop) (s : Session) : Prop := P s.settings

/-! ## Files and directories -/

section Files

theorem keeps_onTree (step : Location → FileTree.TreeStep Unit) : Keeps (WithSettings P) (Job.onTree step) := by
  intro s u s' h hP
  obtain ⟨tree, -, rfl⟩ := Job.onTree_ok h
  exact hP

theorem keeps_setting (key : String) : Keeps J (Job.setting key) := keeps_get.bind fun _ => keeps_lift _

theorem Keeps.setting {f : Value → Job β} (h : ∀ v, Keeps J (f v)) : Keeps J (Job.setting k >>= f) := (keeps_setting k).bind h

def KeptByFiles (J : Session → Prop) : Prop :=
  ∀ path name content, Keeps J (Job.writeFile path name content)

def KeptByNamed (names : String → Prop) (J : Session → Prop) : Prop :=
  ∀ path name content, names name → Keeps J (Job.writeFile path (.text name) content)

theorem KeptByFiles.named (hJ : KeptByFiles J) : KeptByNamed (fun _ => True) J := fun path name content _ => hJ path (.text name) content

theorem keeps_writeFile : KeptByFiles (WithSettings P) := by
  intro path name content s u s' h hP
  obtain ⟨_, _, -, -, hsettings, -⟩ := Job.writeFile_ok h
  show P s'.settings
  rw [hsettings]
  exact hP

def HasFile (path : Value) (file : String) (s : Session) : Prop :=
  ∃ directory content, path = .text directory ∧ s.tree.read s.cwd (joinPaths directory file) = .ok content

theorem keptByFiles_hasFile (path : Value) (file : String) : KeptByFiles (HasFile path file) := by
  rintro _ _ content s u s' h ⟨directory, old, hpath, hread⟩
  obtain ⟨_, _, tree, -, -, hwrite, rfl⟩ := Job.writeFile_run h
  obtain ⟨new, hnew⟩ := FileTree.read_after_write hwrite hread
  exact ⟨directory, new, hpath, hnew⟩

theorem KeptByNamed.writeText {names : String → Prop} (hJ : KeptByNamed names J) (hn : names name) (path : Value) (text : String)
    (replacements : Fields) : Keeps J (Job.writeText path name text replacements) := by
  unfold Job.writeText
  exact Keeps.ite (hJ _ _ _ hn) (.lift fun _ _ => hJ _ _ _ hn)

theorem KeptByFiles.writeText (hJ : KeptByFiles J) (path : Value) (name text : String) (replacements : Fields) :
    Keeps J (Job.writeText path name text replacements) := hJ.named.writeText trivial ..

theorem keeps_createDirectory (path : Value) : Keeps (WithSettings P) (Job.createDirectory path) :=
  .lift fun _ _ => keeps_onTree _

theorem keeps_clearDirectory (path : Value) : Keeps (WithSettings P) (Job.clearDirectory path) := by
  refine Keeps.bind (keeps_get.bind fun s => keeps_lift _) fun names => ?_
  cases path with
  | text path => exact keeps_onTree _
  | _ => exact Keeps.ite (keeps_throw _) (keeps_pure _)

theorem keeps_removeDirectory (path : Value) : Keeps (WithSettings P) (Job.removeDirectory path) :=
  keeps_get.bind fun _ => .lift fun _ _ => Keeps.ite
    ((keeps_clearDirectory path).bind fun _ => .lift fun _ _ => keeps_onTree _) (keeps_pure _)

end Files

/-! ## Files of a container -/

namespace Container

theorem writeProcedure_ok {body signature : Value} {u : Unit} (h : writeProcedure path (.text name) body signature t = .ok u t') :
    ∃ directory content, path = .text directory ∧ substituteFields [("<<SQL_PLACEHOLDER>>", body), ("<<PROCEDURE_NAME>>", .text name),
        ("<<INTERFACE>>", signature)] FileText.procedure = .ok content ∧
      t'.tree.read t'.cwd (joinPaths directory (name ++ ".hdbprocedure")) = .ok content := by
  simp only [writeProcedure, Job.writeText, Value.asText, lift_ok_eq, pure_bind, List.isEmpty_cons, Bool.false_eq_true, if_false, run_parts] at h
  obtain ⟨content, hcontent, h⟩ := h
  obtain ⟨directory, file, rfl, hfile, -, hread⟩ := Job.writeFile_ok h
  cases hfile
  exact ⟨directory, content, rfl, hcontent, hread⟩

theorem writeEntities_ok {context content : Value} {u : Unit} (h : writeEntities path context content t = .ok u t') :
    ∃ directory name text, path = .text directory ∧ context = .text name ∧
      substituteFields [("<<CONTEXT_NAME>>", context), ("<<CONTEXT_CONTENT>>", content)] FileText.entities = .ok text ∧
      t'.tree.read t'.cwd (joinPaths directory (name ++ ".hdbcds")) = .ok text := by
  simp only [writeEntities, Job.writeText, List.isEmpty_cons, Bool.false_eq_true, if_false, run_parts] at h
  obtain ⟨name, hname, text, htext, h⟩ := h
  obtain ⟨directory, file, rfl, hfile, -, hread⟩ := Job.writeFile_ok h
  cases hfile
  exact ⟨directory, name, text, rfl, asText_ok.1 hname, htext, hread⟩

theorem mappedIf_ok {mapSources : Bool} {text body : String} (h : mappedIf mapSources text t = .ok body t') : t' = t := by
  cases mapSources with
  | false => exact (run_pure_ok.1 h).2.symm
  | true =>
    simp only [mappedIf, if_true, run_get_bind, run_lift_ok] at h
    obtain ⟨-, rfl⟩ := h
    rfl

theorem keeps_mappedIf (mapSources : Bool) (text : String) : Keeps J (mappedIf mapSources text) := by
  unfold mappedIf
  exact Keeps.ite (keeps_get.bind fun _ => keeps_lift _) (keeps_pure _)

section Procedures

variable {names : String → Prop} (hJ : KeptByNamed names J)
include hJ

theorem keepsNamed_writeProcedure {name : Value} (hn : ∀ n, name = .text n → names (n ++ ".hdbprocedure"))
    (path body signature : Value) : Keeps J (writeProcedure path name body signature) :=
  .lift fun n h => hJ.writeText (hn n (asText_ok.1 h)) ..

theorem keepsNamed_writeLoad (hvirtual : ∀ n, names (n ++ ".hdbvirtualtable"))
    (hn : ∀ n i, elementName = .text n → item.textEntry "interface_name" = .ok i → names ("load_" ++ n ++ "_" ++ i ++ ".hdbprocedure")) :
    Keeps J (writeLoad elementName item) := by
  unfold Container.writeLoad
  refine .lift fun element helement => .lift fun name hname => .lift fun table _ => ?_
  refine .lift fun schema _ => .setting fun virtualPath =>
    .setting fun procedures => .setting fun source => ?_
  have htable : Keeps J (writeVirtualTable virtualPath source schema table (.text ("remote_" ++ name))) :=
    .lift fun _ _ => .lift fun _ _ => .lift fun _ _ => hJ.writeText (hvirtual _) ..
  refine htable.bind fun _ => ?_
  -- what is loaded does not matter, and its text is long
  generalize loadText (.text ("remote_" ++ name)) table extraColumnValues = body
  refine (keeps_lift body).bind fun _ => keepsNamed_writeProcedure hJ (fun n h => ?_) ..
  cases h
  exact hn element name (asText_ok.1 helement) hname

theorem keepsNamed_takeOutput (hvirtual : ∀ n, names (n ++ ".hdbvirtualtable"))
    (hn : ∀ n i, elementName = .text n → names ("load_" ++ n ++ "_" ++ i ++ ".hdbprocedure")) (modelOnly called : Bool)
    (r : RemoteOutputs) : Keeps J (takeOutput modelOnly called elementName r item) := by
  have hload : ∀ (r : RemoteOutputs) (read : Bool), Keeps J (if !read then pure r else do
      let entity ← liftM (remoteEntity item true)
      Container.writeLoad elementName item
      return { r with entities := r.entities ++ [entity] } : Job RemoteOutputs) := fun r read =>
    Keeps.ite (keeps_pure _) (.lift fun _ _ => (keepsNamed_writeLoad hJ hvirtual fun n i h _ => hn n i h).bind fun _ =>
      keeps_pure _)
  unfold Container.takeOutput
  refine Keeps.ite (.lift fun _ _ => .lift fun _ _ => (keeps_pure _).bind fun r' => ?_)
    ((keeps_pure _).bind fun r' => ?_) <;>
  exact Keeps.ite (keeps_get.bind fun _ => .lift fun _ _ => .lift fun b _ => hload r' b)
    ((keeps_pure _).bind fun b => hload r' b)

theorem keepsNamed_takeElement (hvirtual : ∀ n, names (n ++ ".hdbvirtualtable"))
    (hn : ∀ n, element.entry "name" = .ok (.text n) → names (n ++ ".hdbprocedure") ∧
      ∀ i, names ("load_" ++ n ++ "_" ++ i ++ ".hdbprocedure"))
    (modelOnly : Bool) (entities : List Value) : Keeps J (takeElement modelOnly entities element) := by
  unfold Container.takeElement
  refine .lift fun b _ => Keeps.ite (keeps_pure _) ?_
  refine .lift fun name hname => .lift fun called _ => .lift fun statements _ => ?_
  refine .lift fun p _ => .lift fun inputs _ => .lift fun body _ => ?_
  refine .lift fun outputs _ => (Keeps.foldlM (fun _ _ => keepsNamed_takeOutput hJ hvirtual (fun n i h =>
    (hn n (h ▸ hname)).2 i) _ _ _) _ _).bind fun r => Keeps.ite ?_ (keeps_pure _)
  exact .lift fun _ _ => keeps_get.bind fun _ => .lift fun _ _ =>
    .setting fun _ => (keepsNamed_writeProcedure hJ (fun n h => (hn n (h ▸ hname)).1) ..).bind fun _ => keeps_pure _

theorem keepsNamed_writeElement (hn : ∀ n, element.entry "name" = .ok (.text n) → names (n ++ ".hdbprocedure")) (mapSources : Bool)
    (last : Option String) : Keeps J (writeElement mapSources last element) := by
  unfold Container.writeElement
  refine .lift fun b _ => Keeps.ite (keeps_pure _) ?_
  refine .lift fun name hname => .lift fun statements _ => .lift fun p _ => ?_
  exact .lift fun texts _ => .lift fun sig _ => (keeps_mappedIf _ _).bind fun body =>
    .setting fun path => (keepsNamed_writeProcedure hJ (fun n h => hn n (h ▸ hname)) ..).bind fun _ => keeps_pure _

end Procedures

section Files

variable (hJ : KeptByFiles J)
include hJ

theorem keeps_writeProcedure (path name body signature : Value) :
    Keeps J (writeProcedure path name body signature) := keepsNamed_writeProcedure hJ.named (fun _ _ => trivial) ..

theorem keeps_writeEntities (path context content : Value) : Keeps J (writeEntities path context content) :=
  .lift fun _ _ => hJ.writeText _ _ _ _

theorem keeps_takeOutput (modelOnly called : Bool) (elementName : Value) (r : RemoteOutputs) (item : Value) :
    Keeps J (takeOutput modelOnly called elementName r item) :=
  keepsNamed_takeOutput hJ.named (fun _ => trivial) (fun _ _ _ => trivial) ..

theorem keeps_takeElement (modelOnly : Bool) (entities : List Value) (element : Value) : Keeps J (takeElement modelOnly entities element) :=
  keepsNamed_takeElement hJ.named (fun _ => trivial) (fun _ _ => ⟨trivial, fun _ => trivial⟩) ..

end Files

section Files

theorem keeps_layOut (container module : Value) (directories : List String) :
    Keeps (WithSettings P) (layOut container module directories) :=
  (keeps_removeDirectory _).bind fun _ => .setting fun _ => .lift fun _ _ =>
    keeps_onTree _

theorem keeps_writeGrants (path : Value) (remote : Option Value) : Keeps (WithSettings P) (writeGrants path remote) := by
  refine .setting fun layers => .lift fun schemas _ => ?_
  cases remote with
  | some source => exact keeps_writeFile.writeText _ _ _ _
  | none => exact keeps_writeFile.writeText _ _ _ _

theorem keeps_writeSynonyms (path : Value) : Keeps (WithSettings P) (writeSynonyms path) :=
  .setting fun _ => .lift fun _ _ => keeps_writeFile _ _ _

theorem keeps_writeRoles (path name : Value) : Keeps (WithSettings P) (writeRoles path name) := by
  unfold writeRoles
  refine Keeps.ite ?_ (.setting fun project => ?_) <;>
  exact .lift fun _ _ => (keeps_writeFile.writeText _ _ _ _).bind fun _ => keeps_writeFile.writeText _ _ _ _

theorem elements_of_records {layers : Value} {vs : List Value} (h : layers.entry consumptionKey = .ok (.list vs))
    (hvs : ∀ v ∈ vs, v.isRecord = true) : elements layers = .ok vs := by
  rw [elements, h]
  exact congrArg Except.ok (List.filter_eq_self.2 hvs)

theorem keeps_writeElement (mapSources : Bool) (last : Option String) (element : Value) :
    Keeps (WithSettings P) (writeElement mapSources last element) :=
  keepsNamed_writeElement keeps_writeFile.named (fun _ _ => trivial) ..

theorem keeps_writeElements (mapSources : Bool) : Keeps (WithSettings P) (writeElements mapSources) :=
  .setting fun _ => .lift fun _ _ =>
    (Keeps.foldlM (fun _ _ => keeps_writeElement _ _ _) _ _).bind fun _ => keeps_pure _

end Files

/-! ## Directories that are noted -/

def pathKeys (key : String → String) : List String :=
  [Setting.hanaPath, Setting.modulePath, Setting.sourcePath, Setting.grantsPath, Setting.synonymsPath,
    Setting.proceduresPath, Setting.rolesPath, Setting.entitiesPath].map key

def notedKeys : List String :=
  pathKeys id ++ pathKeys Setting.remote ++ [Setting.skeletonPath, Setting.remote Setting.moduleName,
    Setting.remote Setting.appId, Setting.virtualTablePath, Setting.remote Setting.schema, Setting.graphPath]

theorem Paths.mem_settings {p : Paths} {key : String → String} {v : Value} (h : (k, v) ∈ p.settings key) : k ∈ pathKeys key := by
  have hkeys : (p.settings key).map Prod.fst = pathKeys key := rfl
  rw [← hkeys]
  exact List.mem_map_of_mem h

def Unnoted (P : Settings → Prop) : Prop :=
  ∀ ⦃st : Settings⦄ ⦃k : String⦄ ⦃v : Value⦄, k ∈ notedKeys → P st → P (st.set k v)

theorem unnoted_entry (hk : k ∉ notedKeys) (v : Outcome Value) : Unnoted (fun st => st.entry k = v) := by
  intro st k' w hk' h
  have hne : k ≠ k' := fun e => hk (e ▸ hk')
  exact (Settings.entry_set_ne hne st w).trans h

section Noted

variable (hP : Unnoted P)
include hP

theorem keeps_setSetting (hk : k ∈ notedKeys) (v : Value) : Keeps (WithSettings P) (Job.setSetting k v) := by
  intro s u s' h hs
  have hne : (k == Setting.layers) = false := by
    have hall : ∀ k ∈ notedKeys, (k == Setting.layers) = false := by decide
    exact hall k hk
  simp only [Job.setSetting, run_modify_ok, hne, Bool.false_eq_true, if_false] at h
  subst h
  exact hP hk hs

theorem keeps_noteSettings {fs : Fields} (h : ∀ f ∈ fs, f.1 ∈ notedKeys) : Keeps (WithSettings P) (noteSettings fs) :=
  Keeps.forM fun f hf => keeps_setSetting hP (h f hf) f.2

theorem keeps_notePaths : Keeps (WithSettings P) notePaths := by
  refine keeps_get.bind fun s => .lift fun module _ => .lift fun path _ =>
    .lift fun name _ => ?_
  refine Keeps.bind (keeps_noteSettings hP fun f hf => ?_) fun _ => keeps_setSetting hP (by decide) _
  exact List.mem_append_left _ (List.mem_append_left _ (Paths.mem_settings hf))

theorem keeps_noteRemotePaths : Keeps (WithSettings P) noteRemotePaths := by
  refine keeps_get.bind fun s => .lift fun project _ => .lift fun path _ => ?_
  refine (keeps_setSetting hP (by decide) _).bind fun _ => (keeps_setSetting hP (by decide) _).bind fun _ => ?_
  refine Keeps.bind (keeps_noteSettings hP fun f hf => ?_) fun _ =>
    (keeps_setSetting hP (by decide) _).bind fun _ => keeps_setSetting hP (by decide) _
  exact List.mem_append_left _ (List.mem_append_right _ (Paths.mem_settings hf))

end Noted

end Container

/-! ## Calls and their phases -/

inductive ContainerCall where
  | container (baseLayer consumptionLayer remoteMappingOnly : Bool)
  | withRemote (modelOnly remoteMappingOnly : Bool)

def ContainerCall.run : ContainerCall → Job Unit
  | container baseLayer consumptionLayer remoteMappingOnly =>
      Container.generate baseLayer consumptionLayer remoteMappingOnly
  | withRemote modelOnly remoteMappingOnly => Container.generateRemote modelOnly remoteMappingOnly

/-- A phase of a call: the files of base procedures are written, into the directory that is noted under a key, or something else
is done. -/
inductive Phase where
  | base (key : String) (filters : List String) (mapSources : Bool)
  | other (job : Job Unit)

def Phase.run : Phase → Job Unit
  | base key filters mapSources => do
      Container.writeBaseProcedures (← Job.setting key) filters mapSources
  | other job => job

namespace Container

def prepare : Job Unit := do
  notePaths
  layOut (← Job.setting Setting.hanaPath) (← Job.setting Setting.modulePath) directories
  writeManifest (← Job.setting Setting.hanaPath) (← Job.setting Setting.appId)
    (← Job.setting Setting.moduleName) (← Job.setting Setting.version)
    (← Job.setting Setting.schema) (← Job.setting Setting.grantService)
  writeGrants (← Job.setting Setting.grantsPath) none
  writeSynonyms (← Job.setting Setting.synonymsPath)
  writeRoles (← Job.setting Setting.rolesPath) (← Job.setting Setting.moduleName)

def finish (consumptionLayer remoteMappingOnly : Bool) : Job Unit := do
  if consumptionLayer then writeElements (!remoteMappingOnly)
  let entities ← entitiesOf (← elements (← Job.layers))
  writeEntities (← Job.setting Setting.entitiesPath) (← Job.setting Setting.entityContext) (.text (entitiesText entities))

def prepareRemote : Job Unit := do
  let remote (key : String) : Job Value := Job.setting (Setting.remote key)
  layOut (← remote Setting.hanaPath) (← remote Setting.modulePath) remoteDirectories
  writeManifest (← remote Setting.hanaPath) (← remote Setting.appId) (← remote Setting.moduleName)
    (← Job.setting Setting.version) (← remote Setting.schema) (← remote Setting.grantService)
  writeGrants (← remote Setting.grantsPath) (some (← Job.setting Setting.remoteSource))
  writeSynonyms (← remote Setting.synonymsPath)
  writeRoles (← remote Setting.rolesPath) (← remote Setting.moduleName)

def finishRemote (modelOnly : Bool) : Job Unit := do
  let es ← elements (← Job.layers)
  let entities ← es.foldlM (takeElement modelOnly) []
  writeEntities (← Job.setting (Setting.remote Setting.entitiesPath)) (← Job.setting Setting.entityContext) (.text (entitiesText entities))

end Container

def containerPhases (baseLayer consumptionLayer remoteMappingOnly : Bool) : List Phase :=
  .other Container.prepare :: ((if baseLayer then [.base Setting.proceduresPath [] remoteMappingOnly] else []) ++
      [.other (Container.finish consumptionLayer remoteMappingOnly)])

def ContainerCall.phases : ContainerCall → List Phase
  | container baseLayer consumptionLayer remoteMappingOnly =>
      containerPhases baseLayer consumptionLayer remoteMappingOnly
  | withRemote modelOnly remoteMappingOnly =>
      .other Container.noteRemotePaths :: (containerPhases true true remoteMappingOnly ++
        [.other Container.prepareRemote, .base (Setting.remote Setting.proceduresPath)
          (if modelOnly then Container.modelFilters else []) true, .other (Container.finishRemote modelOnly)])

theorem generate_eq_phases (baseLayer consumptionLayer remoteMappingOnly : Bool) :
    Container.generate baseLayer consumptionLayer remoteMappingOnly =
      (containerPhases baseLayer consumptionLayer remoteMappingOnly).forM Phase.run := by
  cases baseLayer <;> cases consumptionLayer <;>
    simp [Container.generate, Container.writeLayers, containerPhases, Phase.run, Container.prepare, Container.finish]

theorem ContainerCall.run_eq_phases (c : ContainerCall) : c.run = c.phases.forM Phase.run := by
  cases c with
  | container baseLayer consumptionLayer remoteMappingOnly => exact generate_eq_phases ..
  | withRemote modelOnly remoteMappingOnly =>
    have h := generate_eq_phases true true remoteMappingOnly
    simp only [ContainerCall.run, ContainerCall.phases, Container.generateRemote, h]
    simp [Phase.run, Container.prepareRemote, Container.writeRemoteLayers, Container.finishRemote]

theorem runs_eq_phases (calls : List ContainerCall) :
    calls.forM ContainerCall.run = (calls.flatMap ContainerCall.phases).forM Phase.run := by
  induction calls with
  | nil => rfl
  | cons c calls ih =>
    simp only [List.forM_eq_forM] at ih ⊢
    rw [List.forM_cons, List.flatMap_cons, List.forM_append, ih, c.run_eq_phases]
    rfl

/-! ## What phases leave as it is -/

section Phases

namespace Container

def describe : Job Unit := do
  writeManifest (← Job.setting Setting.hanaPath) (← Job.setting Setting.appId)
    (← Job.setting Setting.moduleName) (← Job.setting Setting.version)
    (← Job.setting Setting.schema) (← Job.setting Setting.grantService)
  writeGrants (← Job.setting Setting.grantsPath) none
  writeSynonyms (← Job.setting Setting.synonymsPath)
  writeRoles (← Job.setting Setting.rolesPath) (← Job.setting Setting.moduleName)

theorem keeps_describe : Keeps (WithSettings P) describe := by
  refine .setting fun _ => .setting fun _ => .setting fun _ =>
    .setting fun _ => .setting fun _ => .setting fun _ =>
    (keeps_writeFile.writeText _ _ _ _).bind fun _ => ?_
  exact .setting fun _ => (keeps_writeGrants _ _).bind fun _ => .setting fun _ =>
    (keeps_writeSynonyms _).bind fun _ => .setting fun _ => .setting fun _ =>
    keeps_writeRoles _ _

theorem keeps_prepare (hP : Unnoted P) : Keeps (WithSettings P) prepare :=
  (keeps_notePaths hP).bind fun _ => .setting fun _ => .setting fun _ =>
    (keeps_layOut _ _ _).bind fun _ => keeps_describe

theorem keeps_prepareRemote : Keeps (WithSettings P) prepareRemote := by
  refine .setting fun _ => .setting fun _ => (keeps_layOut _ _ _).bind fun _ => ?_
  refine .setting fun _ => .setting fun _ => .setting fun _ =>
    .setting fun _ => .setting fun _ => .setting fun _ =>
    (keeps_writeFile.writeText _ _ _ _).bind fun _ => ?_
  exact .setting fun _ => .setting fun _ => (keeps_writeGrants _ _).bind fun _ =>
    .setting fun _ => (keeps_writeSynonyms _).bind fun _ => .setting fun _ =>
    .setting fun _ => keeps_writeRoles _ _

theorem keeps_finish (consumptionLayer remoteMappingOnly : Bool) : Keeps (WithSettings P) (finish consumptionLayer remoteMappingOnly) := by
  unfold finish
  refine Keeps.ite ((keeps_writeElements _).bind fun _ => ?_) ?_ <;>
  exact .setting fun _ => .lift fun _ _ => .lift fun _ _ =>
    .setting fun _ => .setting fun _ => keeps_writeEntities keeps_writeFile _ _ _

theorem keeps_finishRemote (modelOnly : Bool) : Keeps (WithSettings P) (finishRemote modelOnly) :=
  .setting fun _ => .lift fun _ _ =>
    (Keeps.foldlM (fun _ _ => keeps_takeElement keeps_writeFile _ _ _) _ _).bind fun _ => .setting fun _ =>
    .setting fun _ => keeps_writeEntities keeps_writeFile _ _ _

end Container

theorem keeps_other (hP : Container.Unnoted P) {c : ContainerCall} {job : Job Unit} (h : .other job ∈ c.phases) :
    Keeps (WithSettings P) job := by
  have hcontainer : ∀ {baseLayer consumptionLayer remoteMappingOnly},
      .other job ∈ containerPhases baseLayer consumptionLayer remoteMappingOnly →
      Keeps (WithSettings P) job := by
    intro b c r h
    have hcases : job = Container.prepare ∨ job = Container.finish c r := by
      cases b <;> simpa [containerPhases] using h
    rcases hcases with rfl | rfl
    · exact Container.keeps_prepare hP
    · exact Container.keeps_finish c r
  cases c with
  | container b c r => exact hcontainer h
  | withRemote m r =>
    simp only [ContainerCall.phases, List.mem_cons, List.mem_append, Phase.other.injEq, reduceCtorEq,
      false_or, List.not_mem_nil, or_false] at h
    rcases h with rfl | h | rfl | rfl
    · exact Container.keeps_noteRemotePaths hP
    · exact hcontainer h
    · exact Container.keeps_prepareRemote
    · exact Container.keeps_finishRemote m

end Phases

/-! ## What writing base procedures does to the layers -/

namespace Container

theorem appendVariables_run {a : Address} {outputs : Value} (h : appendVariables a object t = .ok outputs t') :
    (object.has "output_vars" = .ok false ∧ t' = t) ∨ ∃ us vars vs layers,
      object.entryOr "output_tables" (.list []) = .ok (.list us) ∧ object.entry "output_vars" = .ok vars ∧
      vars.members = .ok vs ∧ outputs = .list (us ++ vs) ∧ t.settings.entry Setting.layers = .ok layers ∧
      t'.settings = t.settings.set Setting.layers (layers.putAt (a.place ++ [.key "output_tables"]) outputs) := by
  simp only [appendVariables, run_parts] at h
  obtain ⟨tables, htables, b, hb, h⟩ := h
  cases b with
  | false =>
    simp only [Bool.not_false, if_true, run_pure_ok] at h
    exact .inl ⟨hb, h.2.symm⟩
  | true =>
    simp only [if_not_true, run_parts, run_pure_ok] at h
    obtain ⟨vars, hvars, _, -, vs, hvs, w, hw, _, t1, hkeep, rfl, rfl⟩ := h
    simp only [keepOutputs, run_parts, Job.layers, Job.setting, Job.keepLayers, run_modify_ok] at hkeep
    obtain ⟨layers, hl, _, _, rfl, hkeep⟩ := hkeep
    cases tables with
    | list us =>
      cases hw
      refine .inr ⟨us, vars, vs, layers, htables, hvars, hvs, rfl, hl, ?_⟩
      -- a shared list is kept in the trace as well, which is none of the settings
      split at hkeep
      · cases hkeep
        rfl
      · cases hkeep
        rfl
    | _ => cases hw

def Baseless (P : Settings → Prop) : Prop :=
  ∀ ⦃st : Settings⦄ ⦃layers : Value⦄ (place : Place) (v : Value), st.entry Setting.layers = .ok layers →
    P st → P (st.set Setting.layers (layers.putAt (.key baseKey :: place) v))

theorem keeps_baseProcedureFile (happend : ∀ algo function object, Keeps J (appendVariables { algo, function } object))
    (filters : List String) (mapSources : Bool) (algo function object : Value) :
    Keeps J (baseProcedureFile filters mapSources algo function object) := by
  unfold baseProcedureFile
  refine .lift fun _ _ => Keeps.ite (keeps_pure _) (.lift fun _ _ =>
    .lift fun _ _ => .lift fun _ _ => Keeps.ite (keeps_pure _) ?_)
  exact .lift fun _ _ => (happend _ _ _).bind fun _ => .lift fun _ _ =>
    .lift fun _ _ => .lift fun _ _ => (keeps_mappedIf _ _).bind fun _ => keeps_pure _

theorem baseProcedureFile_name {filters : List String} {mapSources : Bool} {algo function : Value} {s s' : Session} {file : ProcedureFile}
    (h : baseProcedureFile filters mapSources algo function object s = .ok (some file) s') :
    ∃ metadata, object.entry "metadata" = .ok metadata ∧ metadata.entry "procedure_name" = .ok file.name := by
  simp only [baseProcedureFile, run_parts] at h
  obtain ⟨b, -, h⟩ := h
  cases b with
  | false => cases (run_pure_ok.1 h).1
  | true =>
    simp only [if_not_true, run_parts] at h
    obtain ⟨metadata, hmeta, name, hname, b, -, h⟩ := h
    cases b with
    | false => cases (run_pure_ok.1 h).1
    | true =>
      simp only [if_not_true, run_bind_ok, run_lift_ok, run_pure_ok] at h
      obtain ⟨_, _, -, _, _, -, _, _, -, _, _, -, _, _, -, _, _, -, hfile, -⟩ := h
      cases hfile
      exact ⟨metadata, hmeta, hname⟩

theorem keepsNamed_writeBaseProcedure {names : String → Prop} (hJ : KeptByNamed names J)
    (happend : ∀ algo function object, Keeps J (appendVariables { algo, function } object))
    (hn : ∀ metadata n, object.entry "metadata" = .ok metadata → metadata.entry "procedure_name" = .ok (.text n) →
      names (n ++ ".hdbprocedure"))
    (path : Value) (filters : List String) (mapSources : Bool) (algo function : Value) :
    Keeps J (writeBaseProcedure path filters mapSources algo function object) := by
  intro s u s' h hs
  obtain ⟨file, t, hfile, h⟩ := run_bind_ok.1 h
  have ht := keeps_baseProcedureFile happend _ _ _ _ _ hfile hs
  cases file with
  | none => exact keeps_pure _ h ht
  | some file =>
    obtain ⟨metadata, hmetadata, hname⟩ := baseProcedureFile_name hfile
    exact keepsNamed_writeProcedure hJ (fun n hfile => hn metadata n hmetadata (hfile ▸ hname)) _ _ _ h ht

theorem keeps_writeBaseProcedure (hJ : KeptByFiles J)
    (happend : ∀ algo function object, Keeps J (appendVariables { algo, function } object)) (path : Value) (filters : List String)
    (mapSources : Bool) (algo function object : Value) : Keeps J (writeBaseProcedure path filters mapSources algo function object) :=
  keepsNamed_writeBaseProcedure hJ.named happend (fun _ _ _ _ => trivial) ..

theorem baseless_entry (hk : k ≠ Setting.layers) (v : Outcome Value) :
    Baseless (fun st => st.entry k = v) := fun st _ _ _ _ h => (Settings.entry_set_ne hk st _).trans h

theorem keeps_appendVariables (hP : Baseless P) (algo function object : Value) :
    Keeps (WithSettings P) (appendVariables { algo, function } object) := by
  intro t outputs t' h ht
  rcases appendVariables_run h with ⟨-, rfl⟩ | ⟨_, _, _, layers, -, -, -, -, hl, hs⟩
  · exact ht
  · show P t'.settings
    rw [hs]
    exact hP _ _ hl ht

theorem keeps_forEachProcedure {step : Value → Value → Value → Job Unit} (h : ∀ algo function object, Keeps J (step algo function object))
    (layers : Value) : Keeps J (forEachProcedure layers step) := by
  refine .lift fun base _ => .lift fun algos _ => ?_
  refine Keeps.forM fun algo _ => .lift fun functions _ => Keeps.ite ?_ (keeps_pure _)
  exact .lift fun names _ => Keeps.forM fun name _ => .lift fun object _ => h _ _ _

theorem keeps_writeBaseProcedures (hP : Baseless P) (path : Value) (filters : List String) (mapSources : Bool) :
    Keeps (WithSettings P) (writeBaseProcedures path filters mapSources) :=
  .setting fun _ => keeps_forEachProcedure
    (fun _ _ _ => keeps_writeBaseProcedure keeps_writeFile (keeps_appendVariables hP) _ _ _ _ _ _) _

def OnTree (K : FileTree → Location → Prop) (s : Session) : Prop := K s.tree s.cwd

theorem keeps_appendVariables_onTree (K : FileTree → Location → Prop) (a : Address) (object : Value) :
    Keeps (OnTree K) (appendVariables a object) := by
  have hkeep : ∀ outputs, Keeps (OnTree K) (keepOutputs a outputs) := by
    intro outputs
    refine .setting fun layers => Keeps.bind ?_ fun _ => keeps_get.bind fun s => Keeps.ite ?_ (keeps_pure _)
    all_goals
      intro t u t' h ht
      cases h
      exact ht
  unfold appendVariables
  refine .lift fun outputs _ => .lift fun b _ => Keeps.ite (keeps_pure _) ?_
  exact .lift fun vars _ => .lift fun _ _ => .lift fun vs _ =>
    .lift fun w _ => (hkeep _).bind fun _ => keeps_pure _

end Container

theorem keeps_phase (hnoted : Container.Unnoted P) (hbase : Container.Baseless P) {c : ContainerCall} {phase : Phase}
    (h : phase ∈ c.phases) : Keeps (WithSettings P) phase.run := by
  cases phase with
  | base key filters mapSources =>
    exact .setting fun _ => Container.keeps_writeBaseProcedures hbase _ _ _
  | other job => exact keeps_other hnoted h

theorem keeps_phases (hnoted : Container.Unnoted P) (hbase : Container.Baseless P) {phases : List Phase}
    (hphases : ∀ p ∈ phases, ∃ c : ContainerCall, p ∈ c.phases) : Keeps (WithSettings P) (phases.forM Phase.run) := by
  refine Keeps.forM fun p hp => ?_
  obtain ⟨c, hc⟩ := hphases p hp
  exact keeps_phase hnoted hbase hc

theorem keeps_containerCall (hnoted : Container.Unnoted P) (hbase : Container.Baseless P) (c : ContainerCall) :
    Keeps (WithSettings P) c.run := by
  rw [c.run_eq_phases]
  exact keeps_phases hnoted hbase fun p hp => ⟨c, hp⟩

end TraceArtifacts
