import TraceArtifacts.Proofs.Writing

/-!
# Proofs: two runs side by side

Two runs from related states, of one job or of two, can be followed together: they end alike, both with the same value or both with
the same fault, and in related states.
-/

namespace TraceArtifacts

variable {path : Value}

/-! ## Runs that end alike -/

section Runs

variable {ε σ α β : Type} {E R Q T : σ → σ → Prop}

/-- Two results with the same value or the same fault; `E` relates what faults leave and `Q` what else there is. -/
inductive EndsAlike (E Q : σ → σ → Prop) : EStateM.Result ε σ α → EStateM.Result ε σ α → Prop where
  | ok {a : α} {s t : σ} (h : Q s t) : EndsAlike E Q (.ok a s) (.ok a t)
  | error {e : ε} {s t : σ} (h : E s t) : EndsAlike E Q (.error e s) (.error e t)

theorem EndsAlike.mono {Q' : σ → σ → Prop} {r r' : EStateM.Result ε σ α} (h : EndsAlike E Q r r')
    (hQ : ∀ {s t}, Q s t → Q' s t) : EndsAlike E Q' r r' := by
  cases h with
  | ok h => exact .ok (hQ h)
  | error h => exact .error h

/-- Two jobs that end alike in related states. -/
def Parallel (E R Q : σ → σ → Prop) (x y : EStateM ε σ α) : Prop := ∀ ⦃s t : σ⦄, R s t → EndsAlike E Q (x s) (y t)

abbrev Tracks (E R Q : σ → σ → Prop) (x : EStateM ε σ α) : Prop := Parallel E R Q x x

theorem Parallel.bind_run {x y : EStateM ε σ α} {f g : α → EStateM ε σ β} (hx : Parallel E R Q x y)
    (hf : ∀ a s s', x s = .ok a s' → Parallel E Q T (f a) (g a)) : Parallel E R T (x >>= f) (y >>= g) := by
  intro s t h
  have hrun := hx h
  have hf := fun a => hf a s
  show EndsAlike E T (EStateM.bind x f s) (EStateM.bind y g t)
  rw [EStateM.bind, EStateM.bind]
  generalize x s = r at hrun hf
  generalize y t = r' at hrun
  cases hrun with
  | ok h => exact hf _ _ rfl h
  | error h => exact .error h

theorem Parallel.bind {x y : EStateM ε σ α} {f g : α → EStateM ε σ β} (hx : Parallel E R Q x y)
    (hf : ∀ a, Parallel E Q T (f a) (g a)) : Parallel E R T (x >>= f) (y >>= g) := hx.bind_run fun a _ _ _ => hf a

theorem tracks_pure (a : α) : Tracks E R R (pure a : EStateM ε σ α) := fun _ _ h => .ok h

theorem Parallel.mono {x y : EStateM ε σ α} (hx : Parallel E R Q x y) {R' Q' : σ → σ → Prop} (hR : ∀ {s t}, R' s t → R s t)
    (hQ : ∀ {s t}, Q s t → Q' s t) : Parallel E R' Q' x y :=
  fun _ _ h => (hx (hR h)).mono hQ

theorem Parallel.ite {c : Prop} [Decidable c] {x x' y y' : EStateM ε σ α} (hx : Parallel E R Q x x') (hy : Parallel E R Q y y') :
    Parallel E R Q (if c then x else y) (if c then x' else y') := by
  split
  · exact hx
  · exact hy

theorem Parallel.forM {f g : α → EStateM ε σ Unit} {xs : List α} (h : ∀ x ∈ xs, Parallel E R R (f x) (g x)) :
    Parallel E R R (xs.forM f) (xs.forM g) := by
  induction xs with
  | nil => exact tracks_pure ()
  | cons x xs ih =>
    obtain ⟨hx, hxs⟩ := List.forall_mem_cons.1 h
    exact hx.bind fun _ => ih hxs

theorem Parallel.foldlM {f g : β → α → EStateM ε σ β} {xs : List α} (h : ∀ x ∈ xs, ∀ b, Parallel E R R (f b x) (g b x)) (b : β) :
    Parallel E R R (xs.foldlM f b) (xs.foldlM g b) := by
  induction xs generalizing b with
  | nil => exact tracks_pure b
  | cons x xs ih =>
    obtain ⟨hx, hxs⟩ := List.forall_mem_cons.1 h
    rw [List.foldlM_cons, List.foldlM_cons]
    exact (hx b).bind fun b => ih hxs b

theorem Parallel.keeping {x y : EStateM ε σ α} {I : σ → Prop} (hx : Parallel E (fun s t => R s t ∧ I s) Q x y) (hI : Keeps I x) :
    Parallel E (fun s t => R s t ∧ I s) (fun s t => Q s t ∧ I s) x y := by
  intro s t h
  have hrun := hx h
  have hkept := fun a s' (hs : x s = .ok a s') => hI hs h.2
  generalize x s = r at hrun hkept
  generalize y t = r' at hrun
  cases hrun with
  | ok h => exact .ok ⟨h, hkept _ _ rfl⟩
  | error h => exact .error h

theorem tracks_lift_bind {E R Q : σ → σ → Prop} (hE : ∀ {s t}, R s t → E s t) {x : Outcome α} {f g : α → EStateM Fault σ β}
    (hf : ∀ a, x = .ok a → Parallel E R Q (f a) (g a)) : Parallel E R Q (liftM x >>= f) (liftM x >>= g) := by
  cases x with
  | ok a => exact hf a rfl
  | error e => exact fun s t h => .error (hE h)

end Runs

/-! ## Sessions that differ in their files -/

/-- A relation of sessions with different files: whatever else they hold is the same, and may be anything as far as the mapping of data
sources stays. -/
structure FilesDiffer (E : Session → Session → Prop) : Prop where
  rest : ∀ {s t}, E s t → t = { s with tree := t.tree }
  any : ∀ {s t}, E s t → ∀ (f : Settings → Settings) (g : Value → Value),
    (∀ st, (f st).entry Setting.sourceMapping = st.entry Setting.sourceMapping) →
    E { s with settings := f s.settings, trace := g s.trace } { t with settings := f t.settings, trace := g t.trace }

def TracksFile (E : Session → Session → Prop) (path : Value) (file : String) : Prop :=
  ∀ content, Tracks E E E (Job.writeFile path (.text file) content)

def Under (E : Session → Session → Prop) (P : Settings → Prop) (s t : Session) : Prop := E s t ∧ P s.settings

section Sessions

variable {E Q : Session → Session → Prop} {P : Settings → Prop} {α β : Type}

theorem TracksFile.writeText {file : String} (h : TracksFile E path file) (text : String) (replacements : Fields) :
    Tracks E E E (Job.writeText path file text replacements) := by
  unfold Job.writeText
  exact .ite (h _) (tracks_lift_bind id fun _ _ => h _)

theorem Under.left {s t : Session} (h : Under E P s t) : E s t := h.1

def Job.reading (g : Settings → Outcome α) : Job α := do g (← get).settings

theorem FilesDiffer.reading_bind (hE : FilesDiffer E) {g : Settings → Outcome α} {f f' : α → Job β}
    (hf : ∀ a st, P st → g st = .ok a → Parallel E (Under E P) Q (f a) (f' a)) :
    Parallel E (Under E P) Q (Job.reading g >>= f) (Job.reading g >>= f') := by
  intro s t h
  have hsame : t.settings = s.settings := by rw [hE.rest h.1]
  have hs : (Job.reading g >>= f) s = (liftM (g s.settings) >>= f) s := rfl
  have ht : (Job.reading g >>= f') t = (liftM (g s.settings) >>= f') t := by
    rw [← hsame]
    rfl
  rw [hs, ht]
  exact tracks_lift_bind (R := Under E P) (fun h => h.1) (fun a ha => hf a _ h.2 ha) h

theorem FilesDiffer.setting_bind (hE : FilesDiffer E) {key : String} {f f' : Value → Job β}
    (hf : ∀ v st, P st → st.entry key = .ok v → Parallel E (Under E P) Q (f v) (f' v)) :
    Parallel E (Under E P) Q (Job.setting key >>= f) (Job.setting key >>= f') :=
  hE.reading_bind hf

theorem FilesDiffer.reading (hE : FilesDiffer E) (g : Settings → Outcome α) : Tracks E E E (Job.reading g) := by
  have hbind := hE.reading_bind (P := fun _ => True) (g := g) (f := pure) fun a _ _ _ => tracks_pure a
  rw [bind_pure] at hbind
  exact hbind.mono (fun h => ⟨h, trivial⟩) Under.left

theorem Parallel.under {x y : Job α} (hx : Parallel E E Q x y) : Parallel E (Under E P) Q x y := hx.mono Under.left id

theorem Parallel.bind_keeping {x y : Job α} {f g : α → Job β} (hx : Parallel E (Under E P) E x y) (hkeeps : Keeps (WithSettings P) x)
    (hf : ∀ a, Parallel E (Under E P) Q (f a) (g a)) : Parallel E (Under E P) Q (x >>= f) (y >>= g) :=
  .bind (.keeping hx hkeeps) hf

end Sessions

/-! ## The phases of a container -/

namespace Container

section Phases

variable {E : Session → Session → Prop} {P : Settings → Prop} {b b' : Bool} (hE : FilesDiffer E)
include hE

theorem tracks_keepOutputs (a : Address) (outputs : Value) : Tracks E E E (keepOutputs a outputs) := by
  refine Parallel.mono (R := Under E fun _ => True) (hE.setting_bind fun layers _ _ _ => .under ?_) (fun h => ⟨h, trivial⟩) id
  have hlayers : Tracks E E E (Job.keepLayers (layers.putAt (a.place ++ [.key "output_tables"]) outputs)) :=
    fun s t h => .ok (hE.any h (Fields.set Setting.layers _) id fun st => Settings.entry_set_ne (by decide) st _)
  refine hlayers.bind fun _ s t h => ?_
  have hshared : t.sharedOutputs = s.sharedOutputs := by rw [hE.rest h]
  dsimp only
  rw [run_get_bind, run_get_bind, hshared]
  exact Parallel.ite (R := E) (fun s t h => .ok (hE.any h id _ fun _ => rfl)) (tracks_pure ()) h

theorem tracks_appendVariables (a : Address) (object : Value) : Tracks E E E (appendVariables a object) := by
  unfold appendVariables
  refine tracks_lift_bind id fun outputs _ => tracks_lift_bind id fun b _ => .ite (tracks_pure _) ?_
  refine tracks_lift_bind id fun vars _ => tracks_lift_bind id fun _ _ => tracks_lift_bind id fun vs _ =>
    tracks_lift_bind id fun all _ => ?_
  exact (tracks_keepOutputs hE a all).bind fun _ => tracks_pure _

theorem tracks_mappedIf (mapSources : Bool) (text : String) : Tracks E E E (mappedIf mapSources text) := by
  unfold mappedIf
  exact .ite (hE.reading fun st => st.mapSources (.text text)) (tracks_pure _)

/-- Texts come out alike whether or not the mapping of data sources is applied to them. -/
def MapsAlike (E : Session → Session → Prop) (b b' : Bool) : Prop := ∀ text, Parallel E E E (mappedIf b text) (mappedIf b' text)

omit hE in
theorem tracks_writeProcedure {name : Value} (h : ∀ n, name = .text n → TracksFile E path (n ++ ".hdbprocedure")) (body signature : Value) :
    Tracks E E E (writeProcedure path name body signature) :=
  tracks_lift_bind id fun n hn => (h n (asText_ok.1 hn)).writeText _ _

omit hE in
theorem tracks_writeEntities {context : Value} (h : ∀ n, context = .text n → TracksFile E path (n ++ ".hdbcds")) (content : Value) :
    Tracks E E E (writeEntities path context content) :=
  tracks_lift_bind id fun n hn => (h n (asText_ok.1 hn)).writeText _ _

theorem baseProcedureFile_parallel (hm : MapsAlike E b b') (filters : List String) (algo function object : Value) :
    Parallel E E E (baseProcedureFile filters b algo function object) (baseProcedureFile filters b' algo function object) := by
  unfold baseProcedureFile
  refine tracks_lift_bind id fun _ _ => .ite (tracks_pure _) ?_
  refine tracks_lift_bind id fun _ _ => tracks_lift_bind id fun _ _ => tracks_lift_bind id fun _ _ =>
    .ite (tracks_pure _) ?_
  refine tracks_lift_bind id fun _ _ => (tracks_appendVariables hE _ _).bind fun _ => tracks_lift_bind id fun _ _ => ?_
  exact tracks_lift_bind id fun _ _ => tracks_lift_bind id fun _ _ => (hm _).bind fun _ => tracks_pure _

def BaseNamed (layers : Value) (n : String) : Prop :=
  ∃ base algo functions function object metadata, layers.entry baseKey = .ok base ∧ base.item algo = .ok functions ∧
    functions.item function = .ok object ∧ object.entry "metadata" = .ok metadata ∧
    metadata.entry "procedure_name" = .ok (.text n)

def ElementNamed (layers : Value) (n : String) : Prop :=
  ∃ es e, elements layers = .ok es ∧ e ∈ es ∧ e.entry "name" = .ok (.text n)

theorem writeBaseProcedures_parallel (hm : MapsAlike E b b') {layers : Value}
    (h : ∀ n, BaseNamed layers n → TracksFile E path (n ++ ".hdbprocedure")) (filters : List String) :
    Parallel E E E (forEachProcedure layers (writeBaseProcedure path filters b)) (forEachProcedure layers (writeBaseProcedure path filters b')) := by
  refine tracks_lift_bind id fun base hbase => tracks_lift_bind id fun algos _ => .forM fun algo _ => ?_
  refine tracks_lift_bind id fun functions hfunctions => .ite ?_ (tracks_pure _)
  refine tracks_lift_bind id fun names _ => .forM fun function _ => tracks_lift_bind id fun object hobject => ?_
  refine (baseProcedureFile_parallel hE hm filters algo function object).bind_run fun file s s' hfile => ?_
  cases file with
  | none => exact tracks_pure _
  | some file =>
    obtain ⟨metadata, hmeta, hname⟩ := baseProcedureFile_name hfile
    refine tracks_writeProcedure (fun n hn => h n ?_) _ _
    exact ⟨base, algo, functions, function, object, metadata, hbase, hfunctions, hobject, hmeta, hn ▸ hname⟩

/-- What container files are in view of settings of which something holds: each of them, written to both sessions, leaves them
related. -/
structure FilesTracked (E : Session → Session → Prop) (P : Settings → Prop) : Prop where
  manifest : ∀ {st path}, P st → st.entry Setting.hanaPath = .ok path → TracksFile E path "mta.yaml"
  grants : ∀ {st path}, P st → st.entry Setting.grantsPath = .ok path → TracksFile E path "grants.hdbgrants"
  synonyms : ∀ {st path}, P st → st.entry Setting.synonymsPath = .ok path → TracksFile E path "synonyms.hdbsynonym"
  roles : ∀ {st path}, P st → st.entry Setting.rolesPath = .ok path →
    TracksFile E path "role.hdbrole" ∧ TracksFile E path "role_with.hdbrole"
  elements : ∀ {st st' path layers n}, P st → st.entry Setting.layers = .ok layers → ElementNamed layers n →
    P st' → st'.entry Setting.proceduresPath = .ok path → TracksFile E path (n ++ ".hdbprocedure")
  entities : ∀ {st st' path n}, P st → st.entry Setting.entitiesPath = .ok path →
    P st' → st'.entry Setting.entityContext = .ok (.text n) → TracksFile E path (n ++ ".hdbcds")

theorem writeElement_parallel (hm : MapsAlike E b b') {element : Value}
    (h : ∀ st path n, P st → st.entry Setting.proceduresPath = .ok path → element.entry "name" = .ok (.text n) →
      TracksFile E path (n ++ ".hdbprocedure")) (last : Option String) :
    Parallel E (Under E P) (Under E P) (writeElement b last element) (writeElement b' last element) := by
  refine Parallel.keeping (R := E) (Q := E) ?_ (keeps_writeElement b last element)
  have hleft : ∀ {s t}, (E s t ∧ WithSettings P s) → E s t := fun h => h.1
  unfold writeElement
  refine tracks_lift_bind hleft fun c _ => .ite ((tracks_pure _).mono hleft id) ?_
  refine tracks_lift_bind hleft fun name hname => tracks_lift_bind hleft fun statements _ => tracks_lift_bind hleft fun p _ => ?_
  refine tracks_lift_bind hleft fun texts _ => tracks_lift_bind hleft fun sig _ => ?_
  refine (hm _).under.bind_keeping (keeps_mappedIf _ _) fun body => ?_
  refine hE.setting_bind fun path st hst hpath => .under ?_
  exact (tracks_writeProcedure (fun n hn => h st path n hst hpath (hn ▸ hname)) _ _).bind fun _ => tracks_pure _

theorem writeElements_parallel (hm : MapsAlike E b b') (hF : FilesTracked E P) :
    Parallel E (Under E P) (Under E P) (writeElements b) (writeElements b') := by
  refine hE.setting_bind fun layers st hst hlayers => tracks_lift_bind Under.left fun es hes => ?_
  refine .bind (.foldlM (fun element helement last => ?_) none) fun _ => tracks_pure _
  refine writeElement_parallel hE hm (fun st' path n hst' hpath hname => ?_) last
  exact hF.elements hst hlayers ⟨es, element, hes, helement, hname⟩ hst' hpath

theorem finish_parallel (hm : MapsAlike E (!b) (!b')) (hF : FilesTracked E P) (consumptionLayer : Bool) :
    Parallel E (Under E P) E (finish consumptionLayer b) (finish consumptionLayer b') := by
  have hentities : Tracks E (Under E P) E (do
      let entities ← entitiesOf (← elements (← Job.layers))
      writeEntities (← Job.setting Setting.entitiesPath) (← Job.setting Setting.entityContext) (.text (entitiesText entities))) := by
    refine hE.setting_bind fun layers _ _ _ => tracks_lift_bind Under.left fun es _ =>
      tracks_lift_bind Under.left fun entities _ => ?_
    refine hE.setting_bind fun path st hst hpath => hE.setting_bind fun context st' hst' hcontext => .under ?_
    exact tracks_writeEntities (fun n hn => hF.entities hst hpath hst' (hn ▸ hcontext)) _
  unfold finish
  exact .ite ((writeElements_parallel hE hm hF).bind fun _ => hentities) hentities

theorem tracks_writeGrants (h : TracksFile E path "grants.hdbgrants") : Tracks E (Under E P) E (writeGrants path none) :=
  hE.setting_bind fun _ _ _ _ => tracks_lift_bind Under.left fun _ _ => (h.writeText _ _).under

theorem tracks_writeSynonyms (h : TracksFile E path "synonyms.hdbsynonym") : Tracks E (Under E P) E (writeSynonyms path) :=
  hE.setting_bind fun _ _ _ _ => tracks_lift_bind Under.left fun _ _ => (h _).under

theorem tracks_writeRoles (h : TracksFile E path "role.hdbrole" ∧ TracksFile E path "role_with.hdbrole") (name : Value) :
    Tracks E (Under E P) E (writeRoles path name) := by
  have hfiles : ∀ replacements : Fields, Tracks E (Under E P) E (do
      Job.writeText path "role.hdbrole" FileText.role replacements
      Job.writeText path "role_with.hdbrole" FileText.grantingRole replacements) := fun _ =>
    .under ((h.1.writeText _ _).bind fun _ => h.2.writeText _ _)
  unfold writeRoles
  refine .ite ?_ (hE.setting_bind fun project _ _ _ => ?_) <;>
  exact tracks_lift_bind Under.left fun _ _ => hfiles _

theorem tracks_describe (hF : FilesTracked E P) : Tracks E (Under E P) E describe := by
  refine hE.setting_bind fun path st hst hpath => hE.setting_bind fun _ _ _ _ => hE.setting_bind fun _ _ _ _ =>
    hE.setting_bind fun _ _ _ _ => hE.setting_bind fun _ _ _ _ => hE.setting_bind fun _ _ _ _ => ?_
  refine ((hF.manifest hst hpath).writeText _ _).under.bind_keeping (keeps_writeFile.writeText _ _ _ _) fun _ => ?_
  refine hE.setting_bind fun path st hst hpath =>
    (tracks_writeGrants hE (hF.grants hst hpath)).bind_keeping (keeps_writeGrants _ _) fun _ => ?_
  refine hE.setting_bind fun path st hst hpath =>
    (tracks_writeSynonyms hE (hF.synonyms hst hpath)).bind_keeping (keeps_writeSynonyms _) fun _ => ?_
  exact hE.setting_bind fun path st hst hpath => hE.setting_bind fun name _ _ _ => tracks_writeRoles hE (hF.roles hst hpath) name

omit hE in
theorem FilesTracked.mono {P' : Settings → Prop} (hF : FilesTracked E P) (h : ∀ {st}, P' st → P st) : FilesTracked E P' where
  manifest := fun hst => hF.manifest (h hst)
  grants := fun hst => hF.grants (h hst)
  synonyms := fun hst => hF.synonyms (h hst)
  roles := fun hst => hF.roles (h hst)
  elements := fun hst hlayers hname hst' => hF.elements (h hst) hlayers hname (h hst')
  entities := fun hst hpath hst' => hF.entities (h hst) hpath (h hst')

def writeAll (baseLayer consumptionLayer remoteMappingOnly : Bool) : Job Unit := do
  describe
  if baseLayer then writeBaseProcedures (← Job.setting Setting.proceduresPath) [] remoteMappingOnly
  finish consumptionLayer remoteMappingOnly

omit hE in
theorem generate_eq_writeAll (baseLayer consumptionLayer remoteMappingOnly : Bool) :
    generate baseLayer consumptionLayer remoteMappingOnly = (do
      notePaths
      layOut (← Job.setting Setting.hanaPath) (← Job.setting Setting.modulePath) directories
      writeAll baseLayer consumptionLayer remoteMappingOnly) := by
  cases baseLayer <;> simp [generate, writeLayers, writeAll, describe, finish]

theorem writeAll_parallel (listed : Outcome Value) (hm : MapsAlike E b b') (hm' : MapsAlike E (!b) (!b')) (hF : FilesTracked E P)
    (hP : Baseless P) (hbase : ∀ {st path layers n}, P st → st.entry Setting.proceduresPath = .ok path → listed = .ok layers →
      BaseNamed layers n → TracksFile E path (n ++ ".hdbprocedure")) (baseLayer consumptionLayer : Bool) :
    Parallel E (Under E fun st => P st ∧ st.entry Setting.layers = listed) E (writeAll baseLayer consumptionLayer b)
      (writeAll baseLayer consumptionLayer b') := by
  have hfinish := finish_parallel hE hm' hF consumptionLayer
  have hleft : ∀ {s t}, Under E (fun st => P st ∧ st.entry Setting.layers = listed) s t → Under E P s t := fun h => ⟨h.1, h.2.1⟩
  refine (tracks_describe hE (hF.mono And.left)).bind_keeping keeps_describe fun _ => ?_
  refine .ite ?_ (hfinish.mono hleft id)
  refine hE.setting_bind fun path st hst hpath => .bind (Q := Under E P) ?_ fun _ => hfinish
  -- the names of base procedures are read before variables are kept
  have hrun : Parallel E (Under E fun st => P st ∧ st.entry Setting.layers = listed) E (writeBaseProcedures path [] b)
      (writeBaseProcedures path [] b') :=
    hE.setting_bind fun layers st' hst' hlayers => .under (writeBaseProcedures_parallel hE hm
      (fun n hn => hbase hst.1 hpath (hst'.2.symm.trans hlayers) hn) [])
  intro s t h
  exact Parallel.keeping (R := fun s t => Under E (fun st => P st ∧ st.entry Setting.layers = listed) s t)
    (hrun.mono (fun h => h.1) id) (keeps_writeBaseProcedures hP path [] b) ⟨h, h.2.1⟩

end Phases

/-! ## One session -/

/-- One session, of which something holds. -/
def Both (J : Session → Prop) (s t : Session) : Prop := s = t ∧ J s

theorem tracksFile_both {J : Session → Prop} (hJ : KeptByFiles J) (path : Value) (file : String) : TracksFile (Both J) path file := by
  rintro content s _ ⟨rfl, hs⟩
  cases hrun : Job.writeFile path (.text file) content s with
  | ok u s' => exact .ok ⟨rfl, hJ _ _ _ hrun hs⟩
  | error e s' =>
    rw [Job.writeFile_eq] at hrun
    cases hw : writtenInto s.cwd path (.text file) content s.tree with
    | ok tree =>
      rw [hw] at hrun
      cases hrun
    | error e' =>
      rw [hw] at hrun
      cases hrun
      exact .error ⟨rfl, hs⟩

theorem filesDiffer_both {J : Session → Prop} (hany : ∀ {s} (f : Settings → Settings) (g : Value → Value),
      (∀ st, (f st).entry Setting.sourceMapping = st.entry Setting.sourceMapping) → J s →
      J { s with settings := f s.settings, trace := g s.trace }) : FilesDiffer (Both J) := by
  refine ⟨?_, ?_⟩
  · rintro s _ ⟨rfl, -⟩
    rfl
  · rintro s _ ⟨rfl, hs⟩ f g hf
    exact ⟨rfl, hany f g hf hs⟩

theorem writeAll_both {J : Session → Prop} {b b' : Bool} (hJ : KeptByFiles J) (hE : FilesDiffer (Both J)) (hm : MapsAlike (Both J) b b')
    (hm' : MapsAlike (Both J) (!b) (!b')) {s : Session} (hs : J s) (baseLayer consumptionLayer : Bool) :
    EndsAlike (Both J) (Both J) (writeAll baseLayer consumptionLayer b s) (writeAll baseLayer consumptionLayer b' s) := by
  have hfile := tracksFile_both hJ
  have hF : FilesTracked (Both J) (fun _ => True) :=
    ⟨fun _ _ => hfile _ _, fun _ _ => hfile _ _, fun _ _ => hfile _ _, fun _ _ => ⟨hfile _ _, hfile _ _⟩, fun _ _ _ _ _ => hfile _ _,
      fun _ _ _ _ => hfile _ _⟩
  exact writeAll_parallel hE (s.settings.entry Setting.layers) hm hm' hF (fun _ _ _ _ _ h => h) (fun _ _ _ _ => hfile _ _)
    baseLayer consumptionLayer ⟨⟨rfl, hs⟩, trivial, rfl⟩

end Container

end TraceArtifacts
