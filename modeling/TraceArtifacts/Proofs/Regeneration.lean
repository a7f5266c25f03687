import TraceArtifacts.Proofs.Alike
import TraceArtifacts.Proofs.Clearing

/-!
# Proofs: generating a container again

Generating a container removes what is in its directory and writes a new one.
-/

namespace TraceArtifacts

open FileTree

variable {fs : Fields} {t : FileTree} {cwd loc q : Location} {s : Session} {st : Settings} {file k m n o p : String} {path v : Value}

/-! ## Paths that lead on -/

/-- A path text that leads on from a directory and never up. -/
structure StaysBelow (p : String) : Prop where
  relative : isAbsolutePath p = false
  up : ".." ∉ pathNames p

instance (p : String) : Decidable (StaysBelow p) :=
  decidable_of_iff (isAbsolutePath p = false ∧ ".." ∉ pathNames p) ⟨fun h => ⟨h.1, h.2⟩, fun h => ⟨h.1, h.2⟩⟩

structure LiesIn (cwd loc : Location) (p : String) : Prop where
  below : loc <+: placeOf cwd p
  up : ".." ∉ pathNames p

theorem LiesIn.join {q : String} (hp : LiesIn cwd loc p) (hq : StaysBelow q) : LiesIn cwd loc (joinPaths p q) := by
  constructor
  · rw [placeOf_joinPaths cwd p hq.relative]
    exact hp.below.trans (List.prefix_append _ _)
  · rw [pathNames_joinPaths p hq.relative, List.mem_append, not_or]
    exact ⟨hp.up, hq.up⟩

/-! ## Files that are written below a location -/

namespace FileTree

section Along

variable {u : FileTree}

theorem SameAlong.onWay (h : SameAlong loc t u) (hp : LiesIn cwd loc p) (i : Nat) :
    t.find? (startOf cwd p ++ (pathNames p).take i) = u.find? (startOf cwd p ++ (pathNames p).take i) := by
  have htake : startOf cwd p ++ (pathNames p).take i <+: placeOf cwd p := (List.prefix_append_right_inj _).2 (List.take_prefix i _)
  exact h _ (List.prefix_or_prefix_of_prefix htake hp.below)

theorem SameAlong.put (h : SameAlong loc t u) (q : Location) (n : Node) : SameAlong loc (t.put q n) (u.put q n) := by
  intro r hr
  by_cases hrq : r = q
  · by_cases hq : q = []
    · rw [hrq, hq]
      rfl
    · rw [hrq, find?_put_self hq, find?_put_self hq]
  · rw [find?_put_ne hrq, find?_put_ne hrq, h r hr]

theorem Spares.put (h : Spares loc t u) (hq : loc <+: q) (n : Node) : Spares loc t (u.put q n) := by
  intro r hr
  have hrq : r ≠ q := fun heq => hr (heq ▸ hq)
  rw [find?_put_ne hrq]
  exact h r hr

theorem putFile_congr (p content : String) (h : t.find? q = u.find? q) :
    (∃ e, putFile p content q t = .error e ∧ putFile p content q u = .error e) ∨
      putFile p content q t = .ok (t.put q (.file content)) ∧ putFile p content q u = .ok (u.put q (.file content)) := by
  unfold FileTree.putFile
  rw [← h]
  cases asksDirectory p with
  | true => exact .inl ⟨_, rfl, rfl⟩
  | false =>
    rcases find?_cases t q with hfind | hfind | ⟨old, hfind⟩ <;> simp only [hfind]
    · exact .inr ⟨rfl, rfl⟩
    · exact .inl ⟨_, rfl, rfl⟩
    · exact .inr ⟨rfl, rfl⟩

theorem SameAlong.write (h : SameAlong loc t u) (hp : LiesIn cwd loc p) (content : String) :
    (∃ e, write cwd p content t = .error e ∧ write cwd p content u = .error e) ∨
      write cwd p content t = .ok (t.put (placeOf cwd p) (.file content)) ∧
        write cwd p content u = .ok (u.put (placeOf cwd p) (.file content)) := by
  have hlocate := locate_congr hp.up (h.onWay hp)
  have hnode := nodeAt_congr hp.up (h.onWay hp)
  rw [write_eq, write_eq, ← hlocate, ← hnode]
  cases hloc : t.locate cwd p with
  | error e => exact .inl ⟨e, rfl, rfl⟩
  | ok r =>
    obtain rfl := locate_ok hp.up hloc
    have hput := putFile_congr p content (h (placeOf cwd p) (.inr hp.below))
    simp only [bind, Except.bind]
    split
    · cases t.nodeAt cwd p with
      | error e => exact .inl ⟨e, rfl, rfl⟩
      | ok n => exact hput
    · exact hput

end Along

end FileTree

/-- Two sessions with the same container: what they hold besides files is the same, and so is all below a location, and outside it
each has the files that it had before. -/
structure SameContainer (cwd loc : Location) (before before' : FileTree) (s t : Session) : Prop where
  here : s.cwd = cwd
  rest : t = { s with tree := t.tree }
  along : SameAlong loc s.tree t.tree
  first : Spares loc before s.tree
  second : Spares loc before' t.tree

section Container

variable {before before' : FileTree}

theorem filesDiffer_sameContainer : FilesDiffer (SameContainer cwd loc before before') where
  rest := SameContainer.rest
  any := by
    rintro s t ⟨hhere, hrest, halong, hfirst, hsecond⟩ f g -
    refine ⟨hhere, ?_, halong, hfirst, hsecond⟩
    generalize t.tree = tree at hrest
    subst hrest
    rfl

theorem tracksFile_sameContainer (hp : LiesIn cwd loc p) (hfile : StaysBelow file) :
    TracksFile (SameContainer cwd loc before before') (.text p) file := by
  intro content s t h
  have hcwd : t.cwd = cwd := by
    rw [h.rest]
    exact h.here
  have hthere : s.tree.exists? cwd p = t.tree.exists? cwd p := by
    rw [exists?, exists?, nodeAt?, nodeAt?, nodeAt_congr hp.up (h.along.onWay hp)]
  have hwrite : ∀ tree : FileTree, writtenInto cwd (.text p) (.text file) content tree =
      if tree.exists? cwd p then FileTree.write cwd (joinPaths p file) content tree
      else .error (.noDirectory (Value.text p).display) := by
    intro tree
    rw [writtenInto, FileTree.isThere]
    cases tree.exists? cwd p <;> rfl
  rw [Job.writeFile_eq, Job.writeFile_eq, h.here, hcwd, hwrite, hwrite, ← hthere]
  split
  · rcases h.along.write (hp.join hfile) content with ⟨e, hs, ht⟩ | ⟨hs, ht⟩
    · rw [hs, ht]
      exact .error h
    · rw [hs, ht]
      have hbelow := (hp.join hfile).below
      refine .ok ⟨h.here, ?_, h.along.put _ _, h.first.put hbelow _, h.second.put hbelow _⟩
      rw [h.rest]
  · exact .error h

theorem Job.onTree_congr {step step' : Location → TreeStep Unit} (h : step s.cwd s.tree = step' s.cwd s.tree) :
    Job.onTree step s = Job.onTree step' s := by
  rw [Job.onTree, Job.onTree, run_get_bind, run_get_bind, h]

/-- A path text of a directory that can be removed and laid out anew. -/
structure IsContainerPath (p : String) : Prop where
  ne : p ≠ ""
  up : ".." ∉ pathNames p
  name : baseName p ≠ "" ∧ baseName p ≠ "." ∧ baseName p ≠ ".."
  names : pathNames p ≠ []

theorem layOut_eq {k : Nat} (hp : IsContainerPath p) (hm : StaysBelow m) (ht : s.tree.WellFormed)
    (hk : Reaches s.tree (startOf s.cwd p) (pathNames p) k) (hv : s.settings.entry Setting.skeletonPath = .ok v)
    (directories : List String) :
    Container.layOut (.text p) (.text (joinPaths p m)) directories s = Job.onTree (fun cwd => do
        makeSound (startOf cwd p) (pathNames p ++ pathNames m)
        modify (laid (placeOf cwd p ++ pathNames m) (Container.skeleton directories)))
        { s with tree := s.tree.remove (placeOf s.cwd p) } := by
  have hnames := pathNames_joinPaths p hm.relative
  have hstart : startOf s.cwd (joinPaths p m) = startOf s.cwd p := by
    rw [startOf, startOf, isAbsolutePath_joinPaths p hm.relative]
  have hup : ".." ∉ pathNames (joinPaths p m) := by
    rw [hnames, List.mem_append, not_or]
    exact ⟨hp.up, hm.up⟩
  have hremoved : Reaches (s.tree.remove (placeOf s.cwd p)) (startOf s.cwd p) (pathNames p ++ pathNames m)
      (min k ((pathNames p).length - 1)) := hk.removed hp.names (pathNames m)
  rw [← hnames, ← hstart] at hremoved
  have hlt : min k ((pathNames p).length - 1) < (pathNames (joinPaths p m)).length := by
    have hpos := List.length_pos_iff.2 hp.names
    rw [hnames, List.length_append]
    omega
  have hcopy := copyInto_eq hup hremoved hlt (Container.skeleton directories)
  rw [hstart, hnames, placeOf_joinPaths s.cwd p hm.relative] at hcopy
  have hsetting : Job.setting Setting.skeletonPath { s with tree := s.tree.remove (placeOf s.cwd p) } =
      .ok v { s with tree := s.tree.remove (placeOf s.cwd p) } := run_lift_of_ok hv
  rw [Container.layOut, run_bind_of_ok (Job.removeDirectory_eq ht hp.ne hp.up hp.name hk), run_bind_of_ok hsetting,
    Value.asText, lift_ok_eq, pure_bind]
  exact Job.onTree_congr hcopy

structure HasRoom (cwd loc : Location) (t : FileTree) : Prop where
  tree : t.WellFormed
  here : t.find? cwd = some .directory
  way : ∀ q, q <+: loc → t.find? q = none ∨ t.find? q = some .directory

theorem HasRoom.start (h : HasRoom cwd loc t) (p : String) : t.find? (startOf cwd p) = some .directory := by
  rw [startOf]
  split
  · rfl
  · exact h.here

theorem HasRoom.reaches (h : HasRoom cwd (placeOf cwd p) t) : ∃ k, Reaches t (startOf cwd p) (pathNames p) k :=
  h.tree.reaches (h.start p) fun i _ => h.way _ ((List.prefix_append_right_inj _).2 (List.take_prefix i _))

theorem take_prefix_takeWhile {here : Location} {names : List String} {k : Nat} (hk : Reaches t here names k) (more : List String) :
    names.take k <+: (names ++ more).takeWhile isSound := by
  have hsplit : names ++ more = names.take k ++ (names.drop k ++ more) := by
    rw [← List.append_assoc, List.take_append_drop]
  rw [hsplit, List.takeWhile_append_of_pos hk.sound]
  exact List.prefix_append _ _

theorem layOut_alike {tree : FileTree} (hp : IsContainerPath p) (hm : StaysBelow m) (hs : HasRoom s.cwd (placeOf s.cwd p) s.tree)
    (ht : HasRoom s.cwd (placeOf s.cwd p) tree) (hv : s.settings.entry Setting.skeletonPath = .ok v) (directories : List String) :
    EndsAlike (SameContainer s.cwd (placeOf s.cwd p) s.tree tree)
      (Under (SameContainer s.cwd (placeOf s.cwd p) s.tree tree) (· = s.settings))
      (Container.layOut (.text p) (.text (joinPaths p m)) directories s)
      (Container.layOut (.text p) (.text (joinPaths p m)) directories { s with tree }) := by
  obtain ⟨k, hk⟩ := hs.reaches
  obtain ⟨k', hk'⟩ := ht.reaches
  rw [layOut_eq hp hm hs.tree hk hv, layOut_eq (s := { s with tree }) hp hm ht.tree hk' hv]
  -- whatever part of the way is made, it has all directories that were there
  have hmade : ∀ good, good <+: pathNames p ++ pathNames m → (pathNames p).take k <+: good → (pathNames p).take k' <+: good →
      ∀ content, SameContainer s.cwd (placeOf s.cwd p) s.tree tree
        { s with tree := (laid (placeOf s.cwd p ++ pathNames m) content
            (makeWay (startOf s.cwd p) good (s.tree.remove (placeOf s.cwd p)))) }
        { s with tree := (laid (placeOf s.cwd p ++ pathNames m) content
            (makeWay (startOf s.cwd p) good (tree.remove (placeOf s.cwd p)))) } :=
    fun good hgood htake htake' content => ⟨rfl, rfl,
      sameAlong_renewed hp.names hs.tree ht.tree (hs.start p) (ht.start p) hk hk' htake htake' content,
      spares_renewed hp.names hgood content s.tree, spares_renewed hp.names hgood content tree⟩
  by_cases hsound : ∀ n ∈ pathNames p ++ pathNames m, isSound n = true
  · have hrun : ∀ t, (do
        makeSound (startOf s.cwd p) (pathNames p ++ pathNames m)
        modify (laid (placeOf s.cwd p ++ pathNames m) (Container.skeleton directories)) : TreeStep Unit) t =
        .ok () (laid (placeOf s.cwd p ++ pathNames m) (Container.skeleton directories)
          (makeWay (startOf s.cwd p) (pathNames p ++ pathNames m) t)) :=
      fun t => run_bind_of_ok (makeSound_ok _ hsound t)
    rw [Job.onTree_of_ok (hrun _), Job.onTree_of_ok (hrun _)]
    refine .ok ⟨hmade _ (List.prefix_refl _) ?_ ?_ _, rfl⟩ <;>
    exact (List.take_prefix _ _).trans (List.prefix_append _ _)
  · obtain ⟨bad, hbad⟩ := makeSound_error (startOf s.cwd p) hsound
    rw [Job.onTree_of_error (run_bind_of_error (hbad _)), Job.onTree_of_error (run_bind_of_error (hbad _))]
    exact .error (hmade _ (List.takeWhile_prefix _) (take_prefix_takeWhile hk _) (take_prefix_takeWhile hk' _) [])

end Container

/-! ## The directories of a container -/

namespace Container

def noted (fs : Fields) (st : Settings) : Settings := fs.foldl (fun st f => st.set f.1 f.2) st

theorem noteSettings_run (h : ∀ f ∈ fs, f.1 ≠ Setting.layers) (s : Session) :
    noteSettings fs s = .ok () { s with settings := noted fs s.settings } := by
  induction fs generalizing s with
  | nil => rfl
  | cons f fs ih =>
    obtain ⟨hf, hfs⟩ := List.forall_mem_cons.1 h
    have hset : Job.setSetting f.1 f.2 s = .ok () { s with settings := s.settings.set f.1 f.2 } := by
      have hkey : (f.1 == Setting.layers) = false := beq_eq_false_iff_ne.2 hf
      show EStateM.Result.ok () _ = _
      rw [hkey]
      rfl
    exact (run_bind_of_ok hset).trans (ih hfs _)

theorem entry_noted_ne (h : k ∉ fs.map Prod.fst) (st : Settings) : (noted fs st).entry k = st.entry k := by
  induction fs generalizing st with
  | nil => rfl
  | cons f fs ih =>
    obtain ⟨hf, hfs⟩ := List.ne_and_not_mem_of_not_mem_cons h
    exact (ih hfs _).trans (Settings.entry_set_ne hf st f.2)

theorem entry_noted (hkeys : (fs.map Prod.fst).Nodup) {f : String × Value} (h : f ∈ fs) (st : Settings) :
    (noted fs st).entry f.1 = .ok f.2 := by
  induction fs generalizing st with
  | nil => cases h
  | cons g fs ih =>
    obtain ⟨hg, hfs⟩ := List.nodup_cons.1 hkeys
    rcases List.mem_cons.1 h with rfl | h
    · exact (entry_noted_ne hg _).trans (Settings.entry_set_self st f.1 f.2)
    · exact ih hfs h _

def containerPath (outputPath : String) : String := joinPaths outputPath "hana"

def pathSettings (outputPath moduleName : String) : Fields :=
  (Paths.mk (containerPath outputPath) (joinPaths (containerPath outputPath) moduleName)).settings id ++
    [(Setting.skeletonPath, .text "templates")]

theorem pathSettings_keys (o m : String) :
    ((pathSettings o m).map Prod.fst).Nodup ∧ ∀ k ∈ (pathSettings o m).map Prod.fst, k ∈ notedKeys := by
  have hkeys : (pathSettings o m).map Prod.fst = pathKeys id ++ [Setting.skeletonPath] := rfl
  rw [hkeys]
  decide

theorem notePaths_run (ho : s.settings.entry Setting.outputPath = .ok (.text o))
    (hm : s.settings.entry Setting.moduleName = .ok (.text m)) :
    notePaths s = .ok () { s with settings := noted (pathSettings o m) s.settings } := by
  have hnot : ∀ f ∈ pathSettings o m, f.1 ≠ Setting.layers := by
    intro f hf hlayers
    have hmem := (pathSettings_keys o m).2 f.1 (List.mem_map_of_mem hf)
    rw [hlayers] at hmem
    exact absurd hmem (by decide)
  have hrun : notePaths s = (noteSettings (pathSettings o m)) s := by
    have htext : s.settings.text Setting.outputPath = .ok o := by
      rw [Settings.text, ho]
      rfl
    rw [notePaths, run_get_bind, run_lift_bind_of_ok hm, run_lift_bind_of_ok htext, Value.asText, lift_ok_eq, pure_bind]
    rfl
  rw [hrun, noteSettings_run hnot]

/-- All that a container is told to write leads on from its directory. -/
structure Contained (outputPath moduleName : String) (st : Settings) : Prop where
  output : st.entry Setting.outputPath = .ok (.text outputPath)
  module : st.entry Setting.moduleName = .ok (.text moduleName)
  up : ".." ∉ pathNames outputPath
  below : StaysBelow moduleName
  context : ∀ n, st.entry Setting.entityContext = .ok (.text n) → StaysBelow (n ++ ".hdbcds")
  procedures : ∀ layers n, st.entry Setting.layers = .ok layers → BaseNamed layers n ∨ ElementNamed layers n →
    StaysBelow (n ++ ".hdbprocedure")

theorem isContainerPath (hup : ".." ∉ pathNames o) : IsContainerPath (containerPath o) where
  ne := joinPaths_ne_empty o (by decide) (by decide)
  up := by
    rw [containerPath, pathNames_joinPaths o (by decide), List.mem_append, not_or]
    exact ⟨hup, by decide⟩
  name := by
    rw [containerPath, baseName_joinPaths o (by decide)]
    decide
  names := by
    rw [containerPath, pathNames_joinPaths o (by decide)]
    exact List.append_ne_nil_of_right_ne_nil _ (by decide)

/-- What is kept in view while the files of a container are written: the directories that were noted, and names that lead on. -/
structure WritesBelow (outputPath moduleName : String) (st : Settings) : Prop where
  paths : ∀ f ∈ pathSettings outputPath moduleName, st.entry f.1 = .ok f.2
  context : ∀ n, st.entry Setting.entityContext = .ok (.text n) → StaysBelow (n ++ ".hdbcds")
  elements : ∀ layers n, st.entry Setting.layers = .ok layers → ElementNamed layers n → StaysBelow (n ++ ".hdbprocedure")

theorem Contained.noted (h : Contained o m st) : WritesBelow o m (noted (pathSettings o m) st) := by
  obtain ⟨hnodup, hkeys⟩ := pathSettings_keys o m
  have hother : ∀ k, k ∉ notedKeys → (Container.noted (pathSettings o m) st).entry k = st.entry k :=
    fun k hk => entry_noted_ne (fun hmem => hk (hkeys k hmem)) st
  refine ⟨fun f hf => entry_noted hnodup hf st, fun n hn => h.context n ?_, fun layers n hlayers hn => ?_⟩
  · rwa [hother _ (by decide)] at hn
  · rw [hother _ (by decide)] at hlayers
    exact h.procedures layers n hlayers (.inr hn)

theorem ElementNamed.of_putAt {layers : Value} {place : Place} (h : ElementNamed (layers.putAt (.key baseKey :: place) v) n) :
    ElementNamed layers n := by
  obtain ⟨es, e, hes, he, hn⟩ := h
  refine ⟨es, e, ?_, he, hn⟩
  have hapart : Place.Apart (.key baseKey :: place) [.key consumptionKey] := .inl (by decide)
  obtain ⟨listed, hlisted, hes⟩ := bind_ok.1 hes
  have hentry : layers.entry consumptionKey = .ok listed := by
    rw [Value.entry_eq_ok_iff] at hlisted ⊢
    exact (Value.at?_modifyAt_of_apart _ hapart layers).symm.trans hlisted
  rw [elements, hentry]
  exact hes

theorem baseless_writesBelow (o m : String) : Baseless (WritesBelow o m) := by
  rintro st layers place v hlayers ⟨hpaths, hcontext, helements⟩
  have hother : ∀ k, k ≠ Setting.layers →
      (Settings.entry (st.set Setting.layers (layers.putAt (.key baseKey :: place) v)) k) = st.entry k :=
    fun k hk => Settings.entry_set_ne hk st _
  refine ⟨fun f hf => ?_, fun n hn => hcontext n ?_, fun layers' n hlayers' hn => ?_⟩
  · rw [hother, hpaths f hf]
    intro hkey
    have hmem := (pathSettings_keys o m).2 f.1 (List.mem_map_of_mem hf)
    rw [hkey] at hmem
    exact absurd hmem (by decide)
  · rwa [hother _ (by decide)] at hn
  · rw [Settings.entry_set_self] at hlayers'
    cases hlayers'
    exact helements layers n hlayers hn.of_putAt

section Generating

variable {before before' : FileTree}

theorem WritesBelow.tracksFile (h : WritesBelow o m st) (hpath : st.entry k = .ok path) (hmem : (k, .text p) ∈ pathSettings o m)
    (hp : LiesIn cwd loc p) (hfile : StaysBelow file) : TracksFile (SameContainer cwd loc before before') path file := by
  obtain rfl := ok_unique hpath (h.paths _ hmem)
  exact tracksFile_sameContainer hp hfile

theorem liesIn_containerPath (hup : ".." ∉ pathNames o) : LiesIn cwd (placeOf cwd (containerPath o)) (containerPath o) :=
  ⟨List.prefix_refl _, (isContainerPath hup).up⟩

def artifactKinds : List (String × String) :=
  [(Setting.grantsPath, "grants"), (Setting.synonymsPath, "synonyms"), (Setting.proceduresPath, "procedures"),
    (Setting.rolesPath, "roles"), (Setting.entitiesPath, "cds")]

theorem artifacts_mem_pathSettings {e : String × String} (h : e ∈ artifactKinds) :
    (e.1, Value.text ((Paths.mk (containerPath o) (joinPaths (containerPath o) m)).artifacts e.2)) ∈ pathSettings o m := by
  simp only [artifactKinds, List.mem_cons, List.not_mem_nil, or_false] at h
  rcases h with rfl | rfl | rfl | rfl | rfl <;> simp [pathSettings, Paths.settings]

theorem WritesBelow.tracksArtifact (h : WritesBelow o m st) (hup : ".." ∉ pathNames o) (hm : StaysBelow m) {e : String × String}
    (he : e ∈ artifactKinds) (hpath : st.entry e.1 = .ok path) (hfile : StaysBelow file) :
    TracksFile (SameContainer cwd (placeOf cwd (containerPath o)) before before') path file := by
  have hkind : StaysBelow e.2 := by
    have hall : ∀ e ∈ artifactKinds, StaysBelow e.2 := by decide
    exact hall e he
  have hsource : LiesIn cwd (placeOf cwd (containerPath o)) (Paths.mk (containerPath o) (joinPaths (containerPath o) m)).source :=
    ((liesIn_containerPath hup).join hm).join (by decide)
  exact h.tracksFile hpath (artifacts_mem_pathSettings he) (hsource.join hkind) hfile

theorem filesTracked_writesBelow (hup : ".." ∉ pathNames o) (hm : StaysBelow m) :
    FilesTracked (SameContainer cwd (placeOf cwd (containerPath o)) before before') (WritesBelow o m) where
  manifest := fun h hpath =>
    h.tracksFile hpath (List.mem_append_left _ List.mem_cons_self) (liesIn_containerPath hup) (by decide)
  grants := fun h hpath => h.tracksArtifact hup hm (e := (Setting.grantsPath, "grants")) (by decide) hpath (by decide)
  synonyms := fun h hpath => h.tracksArtifact hup hm (e := (Setting.synonymsPath, "synonyms")) (by decide) hpath (by decide)
  roles := fun h hpath =>
    ⟨h.tracksArtifact hup hm (e := (Setting.rolesPath, "roles")) (by decide) hpath (by decide),
      h.tracksArtifact hup hm (e := (Setting.rolesPath, "roles")) (by decide) hpath (by decide)⟩
  elements := fun h hlayers hn h' hpath =>
    h'.tracksArtifact hup hm (e := (Setting.proceduresPath, "procedures")) (by decide) hpath (h.elements _ _ hlayers hn)
  entities := fun h hpath h' hcontext =>
    h.tracksArtifact hup hm (e := (Setting.entitiesPath, "cds")) (by decide) hpath (h'.context _ hcontext)

end Generating

theorem generate_run (ho : s.settings.entry Setting.outputPath = .ok (.text o)) (hm : s.settings.entry Setting.moduleName = .ok (.text m))
    (baseLayer consumptionLayer remoteMappingOnly : Bool) :
    generate baseLayer consumptionLayer remoteMappingOnly s = (do
      layOut (.text (containerPath o)) (.text (joinPaths (containerPath o) m)) directories
      writeAll baseLayer consumptionLayer remoteMappingOnly)
        { s with settings := noted (pathSettings o m) s.settings } := by
  have hnoted : ∀ f ∈ pathSettings o m, (noted (pathSettings o m) s.settings).entry f.1 = .ok f.2 :=
    fun f hf => entry_noted (pathSettings_keys o m).1 hf _
  have hcontainer : Job.setting Setting.hanaPath { s with settings := noted (pathSettings o m) s.settings } =
      .ok (.text (containerPath o)) { s with settings := noted (pathSettings o m) s.settings } :=
    run_lift_of_ok (hnoted (Setting.hanaPath, _) (List.mem_append_left _ List.mem_cons_self))
  have hmodule : Job.setting Setting.modulePath { s with settings := noted (pathSettings o m) s.settings } =
      .ok (.text (joinPaths (containerPath o) m)) { s with settings := noted (pathSettings o m) s.settings } :=
    run_lift_of_ok (hnoted (Setting.modulePath, _) (List.mem_append_left _ (.tail _ List.mem_cons_self)))
  rw [generate_eq_writeAll, run_bind_of_ok (notePaths_run ho hm), run_bind_of_ok hcontainer, run_bind_of_ok hmodule]

abbrev RenewedFrom (outputPath : String) (s : Session) (tree : FileTree) : Session → Session → Prop :=
  SameContainer s.cwd (placeOf s.cwd (containerPath outputPath)) s.tree tree

/-- Generating a container into two file trees that differ in whatever was there before ends alike: with the same container, and with
no change besides it but that directories are made on the way to it. -/
theorem generate_renews {s : Session} {o m : String} (h : Contained o m s.settings) {tree : FileTree}
    (hs : HasRoom s.cwd (placeOf s.cwd (containerPath o)) s.tree) (ht : HasRoom s.cwd (placeOf s.cwd (containerPath o)) tree)
    (baseLayer consumptionLayer remoteMappingOnly : Bool) :
    EndsAlike (RenewedFrom o s tree) (RenewedFrom o s tree) (generate baseLayer consumptionLayer remoteMappingOnly s)
      (generate baseLayer consumptionLayer remoteMappingOnly { s with tree }) := by
  have hnoted := h.noted
  have hskeleton : (noted (pathSettings o m) s.settings).entry Setting.skeletonPath = .ok (.text "templates") :=
    hnoted.paths (Setting.skeletonPath, _) (List.mem_append_right _ List.mem_cons_self)
  have hlayers : (noted (pathSettings o m) s.settings).entry Setting.layers = s.settings.entry Setting.layers :=
    entry_noted_ne (fun hmem => absurd ((pathSettings_keys o m).2 _ hmem) (by decide)) _
  have hlayOut := layOut_alike (s := { s with settings := noted (pathSettings o m) s.settings }) (isContainerPath h.up) h.below
    hs ht hskeleton directories
  have hwrite : Tracks (RenewedFrom o s tree)
      (Under (RenewedFrom o s tree) fun st => WritesBelow o m st ∧ st.entry Setting.layers = s.settings.entry Setting.layers)
      (RenewedFrom o s tree) (writeAll baseLayer consumptionLayer remoteMappingOnly) :=
    writeAll_parallel filesDiffer_sameContainer _ (tracks_mappedIf filesDiffer_sameContainer _)
      (tracks_mappedIf filesDiffer_sameContainer _) (filesTracked_writesBelow h.up h.below) (baseless_writesBelow o m)
      (fun hst hpath hlayers hn => hst.tracksArtifact h.up h.below (e := (Setting.proceduresPath, "procedures")) (by decide)
        hpath (h.procedures _ _ hlayers (.inl hn))) _ _
  rw [generate_run h.output h.module, generate_run (s := { s with tree }) h.output h.module]
  refine Parallel.bind (R := fun x y => x = { s with settings := noted (pathSettings o m) s.settings } ∧
    y = { s with settings := noted (pathSettings o m) s.settings, tree }) ?_ (fun _ => hwrite) ⟨rfl, rfl⟩
  rintro _ _ ⟨rfl, rfl⟩
  refine hlayOut.mono ?_
  rintro x y ⟨hxy, hx⟩
  refine ⟨hxy, ?_⟩
  rw [hx]
  exact ⟨hnoted, hlayers⟩

def renewingSession : Session where
  settings := [(Setting.outputPath, .text "o"), (Setting.moduleName, .text "m"), (Setting.entityContext, .text "c"),
    (Setting.layers, .object [(baseKey, .object [("A", .object [("f", .object [("metadata", .object [("procedure_name", .text "p")])])])]),
        (consumptionKey, .list [.object [("name", .text "e")]])])]
  tree := ⟨[(["o"], .directory), (["o", "n"], .file "kept"), (["o", "hana"], .directory), (["o", "hana", "m"], .file "old")]⟩

theorem item_singleton {w key : Value} (h : (Value.object [(k, v)]).item key = .ok w) : w = v := by
  obtain ⟨name, -, hitem⟩ := bind_ok.1 h
  cases hname : name == k with
  | true =>
    simp only [List.lookup_cons, hname] at hitem
    exact (Except.ok.inj hitem).symm
  | false =>
    simp only [List.lookup_cons, List.lookup_nil, hname] at hitem
    split at hitem
    · rename_i heq
      cases heq
    · cases hitem
    · cases hitem

theorem renewingSession_contained : Contained "o" "m" renewingSession.settings where
  output := rfl
  module := rfl
  up := by decide
  below := by decide
  context := by
    intro n hn
    obtain rfl := Value.text.inj (Except.ok.inj hn)
    decide
  procedures := by
    intro layers n hlayers hn
    cases hlayers
    rcases hn with ⟨base, algo, functions, function, object, metadata, hbase, hfunctions, hobject, hmeta, hname⟩ | ⟨es, e, hes, he, hname⟩
    · cases hbase
      obtain rfl := item_singleton hfunctions
      obtain rfl := item_singleton hobject
      cases hmeta
      obtain rfl := Value.text.inj (Except.ok.inj hname)
      decide
    · cases hes
      obtain rfl := List.mem_singleton.1 he
      obtain rfl := Value.text.inj (Except.ok.inj hname)
      decide

theorem hasRoom_of_prefixes (ht : t.WellFormed) (hhere : t.find? cwd = some .directory)
    (hn : t.find? [n] = none ∨ t.find? [n] = some .directory) (hm : t.find? [n, m] = none ∨ t.find? [n, m] = some .directory) :
    HasRoom cwd [n, m] t := by
  refine ⟨ht, hhere, fun q hq => ?_⟩
  rcases List.prefix_cons_iff.1 hq with rfl | ⟨q, rfl, hrest⟩
  · exact .inr rfl
  · rcases List.prefix_cons_iff.1 hrest with rfl | ⟨r, rfl, hlast⟩
    · exact hn
    · rw [List.prefix_nil.1 hlast]
      exact hm

theorem renewingSession_wellFormed : renewingSession.tree.WellFormed := ⟨by decide +kernel, by decide⟩

theorem generate_renews_sample : Contained "o" "m" renewingSession.settings ∧
    HasRoom renewingSession.cwd ["o", "hana"] renewingSession.tree ∧ HasRoom renewingSession.cwd ["o", "hana"] {} ∧
    EndsAlike (RenewedFrom "o" renewingSession {}) (RenewedFrom "o" renewingSession {})
      (generate true true false renewingSession) (generate true true false { renewingSession with tree := {} }) := by
  have hs : HasRoom renewingSession.cwd ["o", "hana"] renewingSession.tree :=
    hasRoom_of_prefixes renewingSession_wellFormed rfl (.inr rfl) (.inr rfl)
  have ht : HasRoom renewingSession.cwd ["o", "hana"] {} :=
    hasRoom_of_prefixes ⟨nofun, nofun⟩ rfl (.inl rfl) (.inl rfl)
  exact ⟨renewingSession_contained, hs, ht, generate_renews renewingSession_contained hs ht true true false⟩

/-! ## Names that step up -/

def endState {ε σ α : Type} : EStateM.Result ε σ α → σ
  | .ok _ s => s
  | .error _ s => s

theorem keptByFiles_hasDirectory (q : Location) : KeptByFiles fun s => s.tree.find? q = some .directory := by
  intro path name content s u s' h hq
  obtain ⟨_, _, tree, -, -, hwrite, rfl⟩ := Job.writeFile_run h
  obtain ⟨loc, -, -, hloc, rfl⟩ := write_ok hwrite
  have hne : q ≠ loc := fun heq => hloc (heq ▸ hq)
  exact (find?_put_ne hne _ _).trans hq

theorem writeAll_hasDirectory (hq : s.tree.find? q = some .directory) (baseLayer consumptionLayer remoteMappingOnly : Bool) :
    (endState (writeAll baseLayer consumptionLayer remoteMappingOnly s)).tree.find? q = some .directory := by
  have hE := filesDiffer_both (J := fun s => s.tree.find? q = some .directory) fun _ _ _ h => h
  have hruns := writeAll_both (keptByFiles_hasDirectory q) hE (tracks_mappedIf hE remoteMappingOnly) (tracks_mappedIf hE _) hq baseLayer
    consumptionLayer
  generalize writeAll baseLayer consumptionLayer remoteMappingOnly s = r at hruns
  cases hruns with
  | ok h => exact h.2
  | error h => exact h.2

def climbingSession : Session where
  settings := Settings.builtin ++ [(Setting.outputPath, .text "o"), (Setting.projectName, .text "o"), (Setting.version, .text "1"),
    (Setting.grantService, .text "g"), (Setting.moduleName, .text "../e"), (Setting.entityContext, .text "output"),
    (Setting.appId, .text "o"), (Setting.schema, .text "S"), (Setting.sourceMapping, .object []),
    (Setting.layers, .object [(baseKey, .object []), (relationsKey, .list []), (consumptionKey, .list [])])]

theorem climbingSession_layOut : ∃ s, layOut (.text (containerPath "o")) (.text (joinPaths (containerPath "o") "../e")) directories
    { climbingSession with settings := noted (pathSettings "o" "../e") climbingSession.settings } = .ok () s ∧
    s.tree.find? ["o", "e"] = some .directory := by
  have hrun : succeedsWith (fun _ s => s.tree.find? ["o", "e"] == some .directory)
      (layOut (.text (containerPath "o")) (.text (joinPaths (containerPath "o") "../e")) directories
        { climbingSession with settings := noted (pathSettings "o" "../e") climbingSession.settings }) = true := by decide +kernel
  obtain ⟨_, s, hs, hfind⟩ := exists_of_succeedsWith hrun
  exact ⟨s, hs, eq_of_beq hfind⟩

/-- With such a name a directory is made that is neither in the container nor on the way to it. -/
theorem generate_leaves_container : ¬ placeOf [] (containerPath "o") <+: ["o", "e"] ∧
    ¬ ["o", "e"] <+: placeOf [] (containerPath "o") ∧ climbingSession.tree.find? ["o", "e"] = none ∧
    ∀ baseLayer consumptionLayer remoteMappingOnly,
      (endState (generate baseLayer consumptionLayer remoteMappingOnly climbingSession)).tree.find? ["o", "e"] = some .directory := by
  refine ⟨by decide, by decide, rfl, fun b c r => ?_⟩
  obtain ⟨s, hrun, hs⟩ := climbingSession_layOut
  rw [generate_run (s := climbingSession) (o := "o") (m := "../e") rfl rfl, run_bind_of_ok hrun]
  exact writeAll_hasDirectory hs b c r

end Container

end TraceArtifacts
