import TraceArtifacts.Proofs.RemoteContainer
import TraceArtifacts.Proofs.ObjectNames

/-!
# Proofs: the names of procedure files

Base procedures, elements and the procedures that load their outputs are files of one directory, each by its name.
-/

namespace TraceArtifacts

open TraceArtifacts.Graph

/-! ## Files and what they are for -/

/-- What the file of a procedure is for: a base procedure, the element at some place, or loading an output of that element, by its
signature name. -/
inductive FileOwner where
  | base (x : ProcedureName)
  | element (i : Nat)
  | load (i : Nat) (interface : String)

def ElementAt (layers : Value) (i : Nat) (v : Value) : Prop :=
  ∃ vs, layers.entry consumptionKey = .ok (.list vs) ∧ vs[i]? = some v

/-- The name of the file that is for something in the layers. -/
inductive NamesFile (layers : Value) : FileOwner → String → Prop where
  | base {x : ProcedureName} {o metadata : Value} {n : String} (ho : procedureAt? layers x = some o)
      (hmetadata : o.entry "metadata" = .ok metadata) (hname : metadata.entry "procedure_name" = .ok (.text n)) :
      NamesFile layers (.base x) n
  | element {i : Nat} {v : Value} {n : String} (hv : ElementAt layers i v) (hname : v.entry "name" = .ok (.text n)) :
      NamesFile layers (.element i) n
  | load {i : Nat} {n : String} (h : NamesFile layers (.element i) n) (interface : String) :
      NamesFile layers (.load i interface) ("load_" ++ n ++ "_" ++ interface)

def Spares (file : String) (job : Job α) : Prop :=
  ∀ K : FileTree → Location → Prop, KeptByNamed (· ≠ file) (Container.OnTree K) → Keeps (Container.OnTree K) job

/-! ## Reading names -/

def FileOwner.procedure? (xs : List ProcedureName) : FileOwner → Option ProcedureName
  | base x => some x
  | element i | load i _ => xs[i]?

def FileOwner.nameAfter (x : ProcedureName) : FileOwner → String
  | base _ => procedureNameOf x.1 x.2
  | element _ => "cons_" ++ procedureNameOf x.1 x.2
  | load _ interface => "load_" ++ ("cons_" ++ procedureNameOf x.1 x.2) ++ "_" ++ interface

def FileName (xs : List ProcedureName) (w : FileOwner) (n : String) : Prop :=
  ∃ x ∈ xs, w.procedure? xs = some x ∧ n = w.nameAfter x

def FileOwner.mark : FileOwner → String
  | base _ => "base_"
  | element _ => "cons_base_"
  | load .. => "load_cons_base_"

def FileOwner.rest : FileOwner → List Char
  | base _ | element _ => []
  | load _ interface => interface.toList ++ ['_']

theorem FileOwner.toList_nameAfter (x : ProcedureName) (w : FileOwner) :
    (w.nameAfter x).toList ++ ['_'] = w.mark.toList ++ (objectFront x ++ w.rest) := by
  cases w <;> simp [nameAfter, mark, rest, procedureNameOf, objectFront]

def PlainlyApart (xs : List ProcedureName) : Prop :=
  ∀ x ∈ xs, ∀ y ∈ xs, plainLower x.1 = plainLower y.1 → plainLower x.2 = plainLower y.2 → x = y

theorem FileName.owner_eq {xs : List ProcedureName} (hxs : PlainlyApart xs) (hnodup : xs.Nodup) {w w' : FileOwner} {n : String}
    (h : FileName xs w n) (h' : FileName xs w' n) : w = w' := by
  obtain ⟨x, hx, hw, rfl⟩ := h
  obtain ⟨y, hy, hw', heq⟩ := h'
  have hlist := congrArg (fun s : String => s.toList ++ ['_']) heq
  simp only [FileOwner.toList_nameAfter] at hlist
  -- the marks start with different characters
  have hmark : w.mark = w'.mark := by
    cases w <;> cases w' <;> first | rfl | simp [FileOwner.mark] at hlist
  rw [hmark, List.append_right_inj] at hlist
  obtain ⟨halgo, hfunction, hrest⟩ := objectFront_append_inj hlist
  obtain rfl := hxs x hx y hy halgo hfunction
  -- different places have different procedures
  have hplace : ∀ {i j : Nat}, xs[i]? = some x → xs[j]? = some x → i = j := fun hi hj =>
    (List.getElem?_inj (List.getElem?_eq_some_iff.1 hi).1 hnodup).1 (hi.trans hj.symm)
  cases w <;> cases w'
  case base.base => exact congrArg FileOwner.base ((Option.some.inj hw).trans (Option.some.inj hw').symm)
  case element.element => exact congrArg FileOwner.element (hplace hw hw')
  case load.load =>
    obtain rfl := hplace hw hw'
    exact congrArg (FileOwner.load _) (String.toList_inj.1 (List.append_cancel_right hrest))
  all_goals simp [FileOwner.mark] at hmark

/-! ## The names in a session -/

def MetadataNamed (x : ProcedureName) (o : Value) : Prop :=
  ∃ metadata, o.entry "metadata" = .ok metadata ∧ metadata.entry "procedure_name" = .ok (.text (procedureNameOf x.1 x.2))

theorem holdsStored_metadataNamed (s : Session) : HoldsStored s MetadataNamed := by
  intro x settings p functions functions' metadata old o b hst hbuild hmetadata hput
  obtain ⟨-, -, -, hstored⟩ := putInto_entries hput
  refine ⟨metadata, hstored, ?_⟩
  simp only [metadataOf, plainValue_text, bind_ok, pure_ok, Except.ok.injEq, exists_eq_left'] at hmetadata
  rw [← hmetadata, procedureNameOf, plainLower_plainText, plainLower_plainText]
  rfl

theorem MetadataNamed.sameBut {keys : List String} {x : ProcedureName} {o o' : Value} (h : MetadataNamed x o)
    (hs : o.SameBut keys o') (hkeys : "metadata" ∉ keys) : MetadataNamed x o' := by
  obtain ⟨metadata, hmetadata, hname⟩ := h
  exact ⟨metadata, (hs.entry hkeys).trans hmetadata, hname⟩

/-- The procedures in layers have the names that are made for them, and the elements are named after them one by one. -/
structure FilesNamed (layers : Value) (xs : List ProcedureName) : Prop where
  base : ∀ {x o}, procedureAt? layers x = some o → x ∈ xs ∧ MetadataNamed x o
  stored : ∀ {x}, x ∈ xs → ∃ o, procedureAt? layers x = some o
  elements : ∃ vs, layers.entry consumptionKey = .ok (.list vs) ∧
    List.Forall₂ (fun (x : ProcedureName) v => v.entry "name" = .ok (.text ("cons_" ++ procedureNameOf x.1 x.2))) xs vs

section Named

variable {layers : Value} {xs : List ProcedureName} (h : FilesNamed layers xs)
include h

theorem FilesNamed.element {i : Nat} {v : Value} (hv : ElementAt layers i v) :
    ∃ x, xs[i]? = some x ∧ v.entry "name" = .ok (.text ("cons_" ++ procedureNameOf x.1 x.2)) := by
  obtain ⟨vs, hvs, hi⟩ := hv
  obtain ⟨vs', hvs', hall⟩ := h.elements
  cases ok_unique hvs hvs'
  obtain ⟨hlength, hall⟩ := List.forall₂_iff_get.1 hall
  obtain ⟨hlt, rfl⟩ := List.getElem?_eq_some_iff.1 hi
  exact ⟨_, List.getElem?_eq_getElem (hlength ▸ hlt), hall i (hlength ▸ hlt) hlt⟩

theorem FilesNamed.element_of_place {i : Nat} {x : ProcedureName} (hi : xs[i]? = some x) :
    NamesFile layers (.element i) ("cons_" ++ procedureNameOf x.1 x.2) := by
  obtain ⟨vs, hvs, hall⟩ := h.elements
  obtain ⟨hlength, hall⟩ := List.forall₂_iff_get.1 hall
  obtain ⟨hlt, rfl⟩ := List.getElem?_eq_some_iff.1 hi
  exact .element ⟨vs, hvs, List.getElem?_eq_getElem (hlength ▸ hlt)⟩ (hall i hlt (hlength ▸ hlt))

theorem FilesNamed.namesFile_iff {w : FileOwner} {n : String} : NamesFile layers w n ↔ FileName xs w n := by
  constructor
  · intro hn
    have helement : ∀ {i : Nat} {n : String}, NamesFile layers (.element i) n →
        ∃ x, xs[i]? = some x ∧ n = "cons_" ++ procedureNameOf x.1 x.2 := by
      rintro i n (_ | ⟨hv, hname⟩)
      obtain ⟨x, hx, hname'⟩ := h.element hv
      exact ⟨x, hx, Value.text.inj (ok_unique hname hname')⟩
    cases hn with
    | @base x o metadata n ho hmetadata hname =>
      obtain ⟨hx, metadata', hmetadata', hname'⟩ := h.base ho
      obtain rfl := ok_unique hmetadata hmetadata'
      exact ⟨x, hx, rfl, Value.text.inj (ok_unique hname hname')⟩
    | element hv hname =>
      obtain ⟨x, hx, rfl⟩ := helement (.element hv hname)
      exact ⟨x, List.mem_of_getElem? hx, hx, rfl⟩
    | load hn interface =>
      obtain ⟨x, hx, rfl⟩ := helement hn
      exact ⟨x, List.mem_of_getElem? hx, hx, rfl⟩
  · rintro ⟨x, hx, hw, rfl⟩
    cases w with
    | base y =>
      cases hw
      obtain ⟨o, ho⟩ := h.stored hx
      obtain ⟨-, metadata, hmetadata, hname⟩ := h.base ho
      exact .base ho hmetadata hname
    | element i => exact h.element_of_place hw
    | load i interface => exact .load (h.element_of_place hw) interface

end Named

/-! ## Whom writing spares -/

/-- Everything in the layers has a file of its own: names that were given at first are kept, they are different, and what is written
for one thing leaves the files of all others alone. -/
structure FilesApart (layers now : Value) : Prop where
  base : ∀ {x o}, procedureAt? now x = some o → ∃ n, NamesFile now (.base x) n
  element : ∀ {i v}, ElementAt now i v → ∃ n, NamesFile now (.element i) n
  kept : ∀ {w n}, NamesFile now w n ↔ NamesFile layers w n
  owner_eq : ∀ {w w' n}, NamesFile layers w n → NamesFile layers w' n → w = w'
  base_spares : ∀ {x o w n}, procedureAt? now x = some o → NamesFile layers w n → w ≠ .base x →
    ∀ path filters mapSources, Spares (n ++ ".hdbprocedure")
      (Container.writeBaseProcedure path filters mapSources (.text x.1) (.text x.2) o)
  element_spares : ∀ {i v w n}, ElementAt now i v → NamesFile layers w n → w ≠ .element i →
    ∀ mapSources last, Spares (n ++ ".hdbprocedure") (Container.writeElement mapSources last v)
  load_spares : ∀ {i v name item interface w n}, ElementAt now i v → v.entry "name" = .ok name →
    item.textEntry "interface_name" = .ok interface → NamesFile layers w n → w ≠ .load i interface →
    Spares (n ++ ".hdbprocedure") (Container.writeLoad name item)
  remote_spares : ∀ {i v w n}, ElementAt now i v → NamesFile layers w n → w ≠ .element i →
    (∀ interface, w ≠ .load i interface) → ∀ modelOnly entities,
    Spares (n ++ ".hdbprocedure") (Container.takeElement modelOnly entities v)

theorem virtualTable_ne_procedure (m n : String) : m ++ ".hdbvirtualtable" ≠ n ++ ".hdbprocedure" := by
  intro h
  have hlist := congrArg (fun s : String => s.toList.reverse) h
  simp at hlist

theorem filesApart {layers now : Value} {xs : List ProcedureName} (hxs : PlainlyApart xs) (hnodup : xs.Nodup)
    (hlayers : FilesNamed layers xs) (hnow : FilesNamed now xs) : FilesApart layers now := by
  have hkept : ∀ {w n}, NamesFile now w n ↔ NamesFile layers w n := hnow.namesFile_iff.trans hlayers.namesFile_iff.symm
  have howner : ∀ {w w' n}, NamesFile layers w n → NamesFile layers w' n → w = w' := fun h h' =>
    (hlayers.namesFile_iff.1 h).owner_eq hxs hnodup (hlayers.namesFile_iff.1 h')
  have hne : ∀ {w w' : FileOwner} {m n : String}, NamesFile now w' m → NamesFile layers w n → w ≠ w' →
      m ++ ".hdbprocedure" ≠ n ++ ".hdbprocedure" := by
    intro w w' m n hm hn hw heq
    obtain rfl : m = n := by simpa [← String.toList_inj] using heq
    exact hw (howner hn (hkept.1 hm))
  refine ⟨fun {x o} ho => ?_, fun {i v} hv => ?_, hkept, howner, fun ho hn hw path filters mapSources K hK => ?_,
    fun hv hn hw mapSources last K hK => ?_, fun hv hname hinterface hn hw K hK => ?_,
    fun hv hn hw hload modelOnly entities K hK => ?_⟩
  · obtain ⟨-, metadata, hmetadata, hname⟩ := hnow.base ho
    exact ⟨_, .base ho hmetadata hname⟩
  · obtain ⟨x, -, hname⟩ := hnow.element hv
    exact ⟨_, .element hv hname⟩
  · exact Container.keepsNamed_writeBaseProcedure hK (fun _ _ _ => Container.keeps_appendVariables_onTree ..)
      (fun metadata m hmetadata hname => hne (.base ho hmetadata hname) hn hw) _ _ _ _ _
  · exact Container.keepsNamed_writeElement hK (fun m hname => hne (.element hv hname) hn hw) _ _
  · refine Container.keepsNamed_writeLoad hK (fun m => virtualTable_ne_procedure m _) fun m i hm hi => ?_
    obtain rfl := ok_unique hinterface hi
    exact hne (.load (.element hv (hm ▸ hname)) _) hn hw
  · refine Container.keepsNamed_takeElement hK (fun m => virtualTable_ne_procedure m _) (fun m hname => ?_) _ _
    exact ⟨hne (.element hv hname) hn hw, fun i => hne (.load (.element hv hname) i) hn (hload i)⟩

/-! ## Sessions -/

section Sessions

variable {s s' : Session}

theorem Processed.filesNamed {P : BaseParts → Prop} {grouped final : Value} {relations : List Relation} {es : List Element}
    (hp : Processed P s s' grouped final relations es) (hm : MergesNothing s.settings)
    (hnamed : ∀ {x o}, procedureAt? final x = some o → MetadataNamed x o) :
    List.Forall₂ (fun (x : ProcedureName) (e : Element) => e.name = "cons_" ++ procedureNameOf x.1 x.2) (procedureNames final) es := by
  obtain ⟨settings, b, hst, hbuild, -, -⟩ := hp.run
  have hm' : MergesNothing settings := fun m hmerge => hm m ((hst _ (by decide)).symm.trans hmerge)
  obtain ⟨hall, -, -⟩ := buildConsumption_single hbuild hp.fresh.base hp.fresh.records hm' hp.fresh.unmerged
  rw [hp.names]
  refine hall.imp fun x e he => ?_
  obtain ⟨_, o, c, n, _, -, ho, hc, hn, -, rfl⟩ := he
  obtain ⟨o', ho', hs⟩ := hp.procedure ho
  obtain ⟨metadata, hmetadata, hname⟩ := hnamed ho'
  have hprocedure := procedureName_of_entries hmetadata hname
  rw [hs.procedureName (by decide), hc.procedure, hn] at hprocedure
  rw [elementOf, Value.text.inj (Except.ok.inj hprocedure)]

theorem FilesNamed.later {layers now : Value} {schema : String} {n : Nat} {es : List Element} (halike : Alike ["output_tables"] layers now)
    (hlisted : now.entry consumptionKey = .ok (.list (es.map (elementAfter schema n))))
    (hes : List.Forall₂ (fun (x : ProcedureName) (e : Element) => e.name = "cons_" ++ procedureNameOf x.1 x.2)
      (procedureNames layers) es) (hnamed : ∀ {x o}, procedureAt? layers x = some o → MetadataNamed x o) :
    FilesNamed now (procedureNames layers) := by
  refine ⟨fun {x o} ho => ?_, fun {x} hx => ?_, _, hlisted, ?_⟩
  · obtain ⟨first, hfirst, hs⟩ := halike.procedure' ho
    exact ⟨(mem_procedureNames halike.base).2 ⟨first, hfirst⟩, (hnamed hfirst).sameBut hs (by decide)⟩
  · obtain ⟨first, hfirst⟩ := (mem_procedureNames halike.base).1 hx
    obtain ⟨o, ho, -⟩ := halike.procedure hfirst
    exact ⟨o, ho⟩
  · refine List.forall₂_map_right_iff.2 (hes.imp fun x e he => ?_)
    rw [← he]
    rfl

theorem processTrace_files_apart {raiseOnError logStatements own : Bool} {u v w : Unit}
    (h : processTrace raiseOnError logStatements own s = .ok u s')
    (hl : s.settings.entry Setting.layers = .ok (.object [])) (hm : MergesNothing s.settings) {history : List Generation}
    {t t' : Session} (hrun : history.forM Generation.run s' = .ok v t) {phases : List Phase}
    (hphases : ∀ p ∈ phases, ∃ c : ContainerCall, p ∈ c.phases) (hwrite : phases.forM Phase.run t = .ok w t') :
    (s.trace.isTruthy = false ∧ s' = s) ∨ ∃ layers now, s'.settings.entry Setting.layers = .ok layers ∧
      t'.settings.entry Setting.layers = .ok now ∧ (PlainlyApart (procedureNames layers) → FilesApart layers now) := by
  obtain hempty | ⟨layers, hlayers, hgrown⟩ := processTrace_complete h hl
  · exact .inl hempty
  obtain hempty | ⟨final, hfinal, hnamed⟩ := processTrace_holds (holdsStored_metadataNamed s) (fun hx hs => hx.sameBut hs (by decide)) h hl
  · exact .inl hempty
  refine (processTrace_processed storesAs_trivial h hl trivial).imp_right ?_
  rintro ⟨grouped, final', relations, es, hp⟩
  obtain rfl := ok_unique hlayers hfinal
  obtain rfl := ok_unique hlayers hp.layers
  have hes := hp.filesNamed hm hnamed
  have hlists := listsAfter_of_processed hp
  have hbase : BaseKept layers t.settings := history_baseKept hrun hlists ⟨layers, hlayers, hgrown.alike, hgrown⟩
  obtain ⟨now, hnow, halike, -⟩ := BaseKept.phases hphases hwrite hbase
  obtain ⟨-, ⟨now', hnow', hlisted⟩, -⟩ := keeps_phases (unnoted_listsAfter ..) (baseless_listsAfter ..) hphases hwrite
    (history_after hrun hlists)
  obtain rfl := ok_unique hnow hnow'
  refine ⟨layers, now, hlayers, hnow, fun hxs => filesApart hxs (procedureNames_nodup halike.base) ?_
    (FilesNamed.later halike hlisted hes hnamed)⟩
  have hlisted : layers.entry consumptionKey = .ok (.list (es.map (elementAfter "" 0))) := by
    rw [hp.listed, funext (elementAfter_zero "")]
  exact FilesNamed.later hgrown.alike hlisted hes hnamed

end Sessions

/-- A session with calls of two functions, of which the name of one starts with that of the other, nothing processed yet. -/
def filingSession : Session :=
  { loadingSession with trace := .object [("RandomForestClassifier", .object [("F", call), ("F_P", call)])] }
where
  call : Value := .object [("sql", .list [.text "DO"]), ("function", .list []), ("input_tables", .list []),
    ("output_tables", .list []), ("output_vars", .list [])]

/-- The files of the sample are apart when its base procedures have been written for a remote container. -/
theorem processTrace_files_apart_sample : ∃ s t layers now, processTrace true false true filingSession = .ok () s ∧
    [Phase.base (Setting.remote Setting.proceduresPath) [] true].forM Phase.run s = .ok () t ∧
      s.settings.entry Setting.layers = .ok layers ∧ (procedureNames layers).length = 2 ∧
      t.settings.entry Setting.layers = .ok now ∧ FilesApart layers now := by
  have hsample : succeedsWith (fun layers _ => procedureNames layers ==
      [("RandomForestClassifier", "F"), ("RandomForestClassifier", "F_P")]) ((do
        processTrace true false true
        let layers ← Job.layers
        [Phase.base (Setting.remote Setting.proceduresPath) [] true].forM Phase.run
        return layers : Job Value) filingSession) = true := by decide +kernel
  obtain ⟨layers, t, h, hnames⟩ := exists_of_succeedsWith hsample
  simp only [Job.layers, Job.setting, run_parts, run_pure_ok] at h
  obtain ⟨_, s, hs, _, hl, _, _, hwrite, rfl, rfl⟩ := h
  have hm : MergesNothing filingSession.settings := mergesNothing_of_entry rfl (by decide)
  have hphases : ∀ p ∈ [Phase.base (Setting.remote Setting.proceduresPath) [] true], ∃ c : ContainerCall, p ∈ c.phases := by
    intro p hp
    obtain rfl := List.mem_singleton.1 hp
    exact ⟨.withRemote false false, by simp [ContainerCall.phases]⟩
  have hrun : ([] : List Generation).forM Generation.run s = .ok () s := rfl
  obtain ⟨hempty, -⟩ | ⟨layers', now, hl', hnow, hapart⟩ := processTrace_files_apart hs rfl hm hrun hphases hwrite
  · exact absurd hempty (by decide)
  obtain rfl := ok_unique hl hl'
  rw [beq_iff_eq] at hnames
  refine ⟨s, _, _, now, hs, hwrite, hl, congrArg List.length hnames, hnow, hapart ?_⟩
  rw [hnames]
  unfold PlainlyApart
  decide

end TraceArtifacts
