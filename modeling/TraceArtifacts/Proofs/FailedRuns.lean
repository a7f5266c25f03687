import TraceArtifacts.Proofs.Processing

/-!
# Proofs: what a run leaves when it fails

What was done before a fault remains done.
-/

namespace TraceArtifacts

variable {names : List Value} {s : Session} {l layers v : Value}

/-! ## Steps that may fail -/

section Steps

variable {ε σ α β : Type} {I : σ → Prop}

def stateAfter : EStateM.Result ε σ α → σ
  | .ok _ s => s
  | .error _ s => s

def Preserves (I : σ → Prop) (x : EStateM ε σ α) : Prop := ∀ ⦃s : σ⦄, I s → I (stateAfter (x s))

theorem after_bind {x : EStateM ε σ α} {f : α → EStateM ε σ β} {s : σ} (hx : I (stateAfter (x s)))
    (hf : ∀ a t, x s = .ok a t → I t → I (stateAfter (f a t))) : I (stateAfter ((x >>= f) s)) := by
  show I (stateAfter (EStateM.bind x f s))
  unfold EStateM.bind
  cases h : x s with
  | ok a t =>
    rw [h] at hx
    exact hf a t h hx
  | error e t =>
    rw [h] at hx
    exact hx

theorem Preserves.bind {x : EStateM ε σ α} {f : α → EStateM ε σ β} (hx : Preserves I x)
    (hf : ∀ a, Preserves I (f a)) : Preserves I (x >>= f) :=
  fun _ hs => after_bind (hx hs) fun a _ _ ht => hf a ht

def Fails (I : σ → Prop) (x : EStateM ε σ α) (s : σ) : Prop := ∀ e s', x s = .error e s' → I s'

theorem fails_bind {x : EStateM ε σ α} {f : α → EStateM ε σ β} {s : σ} (hx : I (stateAfter (x s)))
    (hf : ∀ a t, x s = .ok a t → I t → Fails I (f a) t) : Fails I (x >>= f) s := by
  intro e s' h
  change EStateM.bind x f s = .error e s' at h
  unfold EStateM.bind at h
  cases hr : x s with
  | ok a t =>
    rw [hr] at hx h
    exact hf a t hr hx e s' h
  | error e' t =>
    rw [hr] at hx h
    obtain ⟨rfl, rfl⟩ := EStateM.Result.error.inj h
    exact hx

theorem Preserves.fails {x : EStateM ε σ α} (hx : Preserves I x) {s : σ} (hs : I s) : Fails I x s := by
  intro e s' h
  have := hx hs
  rwa [h] at this

theorem preserves_pure (a : α) : Preserves I (pure a : EStateM ε σ α) := fun _ hs => hs

theorem preserves_get : Preserves I (get : EStateM ε σ σ) := fun _ hs => hs

theorem Preserves.get {f : σ → EStateM ε σ α} (hf : ∀ s, I s → I (stateAfter (f s s))) : Preserves I (get >>= f) := hf

theorem preserves_throw (e : ε) : Preserves I (throw e : EStateM ε σ α) := fun _ hs => hs

theorem after_lift {I : σ → Prop} {x : Outcome α} {f : α → EStateM Fault σ β} {s : σ} (hs : I s)
    (hf : ∀ a, x = .ok a → I (stateAfter (f a s))) : I (stateAfter ((liftM x >>= f) s)) := by
  cases x with
  | ok a => exact hf a rfl
  | error e => exact hs

theorem preserves_lift (x : Outcome α) {I : σ → Prop} : Preserves I (liftM x : EStateM Fault σ α) := by
  intro s hs
  cases x <;> exact hs

theorem Preserves.lift {I : σ → Prop} {x : Outcome α} {f : α → EStateM Fault σ β} (hf : ∀ a, x = .ok a → Preserves I (f a)) :
    Preserves I (liftM x >>= f) := fun _ hs => after_lift hs fun a ha => hf a ha hs

theorem Preserves.forM {f : α → EStateM ε σ Unit} {xs : List α} (h : ∀ x ∈ xs, Preserves I (f x)) : Preserves I (xs.forM f) := by
  induction xs with
  | nil => exact preserves_pure _
  | cons x xs ih =>
    rw [List.forM_eq_forM, List.forM_cons]
    exact (h x (.head _)).bind fun _ => ih fun y hy => h y (.tail _ hy)

theorem Preserves.mapM {f : α → EStateM ε σ β} {xs : List α} (h : ∀ x ∈ xs, Preserves I (f x)) : Preserves I (xs.mapM f) := by
  induction xs with
  | nil => exact preserves_pure _
  | cons x xs ih =>
    rw [List.mapM_cons]
    exact (h x (.head _)).bind fun _ =>
      (ih fun y hy => h y (.tail _ hy)).bind fun _ => preserves_pure _

theorem Preserves.ite {c : Prop} [Decidable c] {x y : EStateM ε σ α} (hx : Preserves I x) (hy : Preserves I y) :
    Preserves I (if c then x else y) := by
  by_cases h : c
  · rw [if_pos h]
    exact hx
  · rw [if_neg h]
    exact hy

theorem stateAfter_finally (x : EStateM ε σ α) (f : EStateM ε σ β) (s : σ) :
    stateAfter ((tryFinally x f) s) = stateAfter (f (stateAfter (x s))) := by
  show stateAfter (EStateM.map (fun y : α × β => y.1) (tryFinally' x fun _ => f) s) = _
  simp only [EStateM.map, tryFinally']
  cases x s with
  | ok a t => cases hf : f t <;> simp [stateAfter, hf]
  | error e t => cases hf : f t <;> simp [stateAfter, hf]

end Steps

/-! ## The base layer -/

def OnlyBase (layers l : Value) : Prop := ∀ k, k ≠ baseKey → l.at? [.key k] = layers.at? [.key k]

theorem OnlyBase.put (h : OnlyBase layers l) (x : ProcedureName) (o : Value) :
    OnlyBase layers ((addressOf x).put o l) := fun k hk => (at?_put_of_ne hk x o l).trans (h k hk)

theorem OnlyBase.setItem {l' : Value} (h : OnlyBase layers l) (hset : l.setItem (.text baseKey) v = .ok l') : OnlyBase layers l' := by
  intro k hk
  cases l with
  | object fs =>
    cases hset
    rw [← h k hk, Value.at?_key, Value.at?_key, Fields.lookup_set_ne hk]
  | list xs =>
    obtain ⟨i, hi, -⟩ := bind_ok.1 hset
    cases hi
  | _ => cases hset

theorem OnlyBase.relations (h : OnlyBase layers l) {relations : List Relation} (hrel : HasRelations layers relations) :
    HasRelations l relations := (h _ (by decide)).trans hrel

/-! ## Storing -/

section Storing

theorem after_setBase (hl : OnlyBase layers l) {f : Change α} (hf : Preserves (OnlyBase layers) f) :
    OnlyBase layers (stateAfter ((do set (← liftM (l.setItem (.text baseKey) v)); f : Change α) l)) := by
  exact after_lift hl fun w hset => hf (hl.setItem hset)

theorem preserves_ensureBase : Preserves (OnlyBase layers) (ensureRecord (.text baseKey)) := by
  refine .get fun l hl => after_lift hl fun b _ => ?_
  cases b with
  | true => exact hl
  | false => exact after_setBase hl (preserves_pure ())

theorem preserves_underBase (c : Change α) : Preserves (OnlyBase layers) (Change.under (.text baseKey) c) := by
  refine .get fun l hl => after_lift hl fun part _ => ?_
  cases hc : c part with
  | ok a part => exact after_setBase hl (preserves_pure a)
  | error e part => exact after_setBase hl (preserves_throw e)

theorem preserves_storeBase (algo function : Value) (b : BaseParts) : Preserves (OnlyBase layers) (storeBase algo function b) :=
  preserves_ensureBase.bind fun _ => (preserves_underBase _).bind fun _ => .lift fun _ _ => preserves_underBase _

def BaseWork.Spares (layers : Value) (w : BaseWork) : Prop := OnlyBase layers w.layers

theorem preserves_generateBase (settings : Settings) (algo function : Value) (p : Prepared) :
    Preserves (BaseWork.Spares layers) (generateBase settings algo function p) := by
  refine .get fun w hw => ?_
  cases hb : buildBase settings algo function p w.functions with
  | error e functions => exact hw
  | ok b functions =>
    have hstore := preserves_storeBase algo function b hw
    cases hs : storeBase algo function b w.layers <;> simp only [hs] at hstore ⊢ <;> exact hstore

end Storing

/-! ## Grouping -/

section Grouping

variable {relations : List Relation} (hp : Paired relations) (hrel : HasRelations layers relations)

def GroupState.Spares (layers : Value) (s : GroupState) : Prop := OnlyBase layers s.layers

theorem preserves_change (x : ProcedureName) (f : Value → Outcome Value) :
    Preserves (GroupState.Spares layers) (GroupStep.change (addressOf x) f) :=
  .get fun _ hs => after_lift hs fun _ _ => after_lift hs fun _ _ => OnlyBase.put hs x _

theorem preserves_takeIn (g : Group) (x : ProcedureName) : Preserves (GroupState.Spares layers) (takeIn g (addressOf x)) := by
  refine .get fun t ht => after_lift ht fun o _ => after_lift ht fun b _ => ?_
  cases b with
  | false => exact ht
  | true => exact preserves_change x _ ht

theorem preserves_fresh : Preserves (GroupState.Spares layers) GroupStep.fresh := fun _ hs => hs

include hp hrel

theorem preserves_walkChain (d : Direction) (g : Group) (fuel : Nat) (x : ProcedureName) :
    Preserves (GroupState.Spares layers) (walkChain d g fuel (.text (procedurePath x))) := by
  induction fuel generalizing x with
  | zero => exact preserves_throw _
  | succ fuel ih =>
    refine .lift fun a ha => ?_
    obtain ⟨-, rfl⟩ := ofPath_procedurePath.1 ha
    refine (preserves_takeIn g x).bind fun _ => .get fun t ht => after_lift ht fun ks hks => ?_
    refine Preserves.forM (I := GroupState.Spares layers) (fun k hk => ?_) ht
    obtain ⟨y, hy⟩ := links_path hp (OnlyBase.relations ht hrel) hks hk
    rw [hy]
    exact ih y

theorem preserves_walkGroup (g : Group) (x : ProcedureName) :
    Preserves (GroupState.Spares layers) (walkGroup g (.text x.1) (.text x.2)) := by
  refine (preserves_change x _).bind fun _ => .get fun t ht => ?_
  have hchain : ∀ d ks, links t.layers d (.text x.1) (.text x.2) = .ok ks → Preserves (GroupState.Spares layers)
      (ks.forM fun k => walkChain d g (chainBound t.layers) k.path) := by
    intro d ks hks
    refine Preserves.forM fun k hk => ?_
    obtain ⟨y, hy⟩ := links_path hp (OnlyBase.relations ht hrel) hks hk
    rw [hy]
    exact preserves_walkChain hp hrel d g _ y
  exact after_lift ht fun before hb => after_lift ht fun after ha => ((hchain _ _ hb).bind fun _ => hchain _ _ ha) ht

theorem preserves_startGroup (x : ProcedureName) : Preserves (GroupState.Spares layers) (startGroup (.text x.1) (.text x.2)) := by
  refine (preserves_change x _).bind fun _ => preserves_fresh.bind fun uid => .lift fun _ _ => .lift fun function _ => ?_
  cases GroupKind.ofFunction? function with
  | none => exact preserves_pure _
  | some kind => exact preserves_walkGroup hp hrel _ x

theorem setGroups_spares (settings : Settings) {rows : Fields} (hrows : HasRows layers rows) (n : Nat) :
    GroupState.Spares layers (stateAfter (setGroups settings { layers, nextId := n })) := by
  have hstart : GroupState.Spares layers { layers, nextId := n } := fun _ _ => rfl
  refine after_lift hstart fun strategy _ => ?_
  rw [run_get_bind]
  refine after_lift hstart fun base hbase => ?_
  obtain rfl : .object rows = base := ok_unique hrows.entry hbase
  simp only [forEachFunction_eq hrows]
  refine Preserves.ite ?_ ?_ hstart
  · exact .forM fun x _ => preserves_startGroup hp hrel x
  · exact .forM fun x _ => .get fun t ht => after_lift ht fun _ _ => (preserves_fresh.bind fun _ => preserves_change x _) ht

end Grouping

/-! ## Building -/

section Building

variable {relations : List Relation}

def BuildState.Spares (layers : Value) (s : BuildState) : Prop := OnlyBase layers s.layers

theorem preserves_contributionOf (x : ProcedureName) (linkType : Value) :
    Preserves (BuildState.Spares layers) (contributionOf (addressOf x) linkType) := by
  refine .get fun s hs => after_lift hs fun o _ => ?_
  cases hc : contribution s.layers (.text x.1) (.text x.2) linkType { settings := s.settings, object := o } <;>
    simp only [addressOf, hc] <;> exact OnlyBase.put hs x _

theorem preserves_markMerged (x : ProcedureName) : Preserves (BuildState.Spares layers) (markMerged (addressOf x)) :=
  .get fun _ hs => after_lift hs fun _ _ => after_lift hs fun _ _ => OnlyBase.put hs x _

theorem preserves_aloneElements (x : ProcedureName) (groups : Value) (c : Contribution) :
    Preserves (BuildState.Spares layers) (aloneElements (.text x.1) (.text x.2) groups c) :=
  .lift fun _ _ => (preserves_markMerged x).bind fun _ => preserves_pure _

theorem preserves_mergeChild (x y : ProcedureName) (groups : Value) (c : Contribution) {k : Link} (hk : k.path = .text (procedurePath y)) :
    Preserves (BuildState.Spares layers) (mergeChild (.text x.1) (.text x.2) groups c k) := by
  refine .lift fun a ha => ?_
  rw [hk] at ha
  obtain ⟨-, rfl⟩ := ofPath_procedurePath.1 ha
  exact (preserves_contributionOf y _).bind fun _ => .lift fun _ _ => (preserves_markMerged y).bind fun _ => preserves_pure _

theorem preserves_mergedElements (hp : Paired relations) (hl : HasRelations l relations) (x : ProcedureName) (groups : Value)
    (c : Contribution) : Preserves (BuildState.Spares layers) (mergedElements l (.text x.1) (.text x.2) groups c) := by
  refine .lift fun parents _ => .lift fun name _ => .ite ?_ ?_
  · refine .lift fun children hchildren => .ite (preserves_aloneElements x groups c) ?_
    refine (Preserves.mapM fun k hk => ?_).bind fun _ => (preserves_markMerged x).bind fun _ => preserves_pure _
    obtain ⟨y, hy⟩ := links_path hp hl hchildren hk
    exact preserves_mergeChild x y groups c hy
  · exact .lift fun b _ => .ite (preserves_pure _) (preserves_aloneElements x groups c)

theorem preserves_buildElements (hp : Paired relations) (hrel : HasRelations layers relations) (x : ProcedureName)
    (linkType : Value) : Preserves (BuildState.Spares layers) (buildElements (.text x.1) (.text x.2) linkType) := by
  refine .get fun s hs => Preserves.lift (fun o _ => .lift fun groups _ => .lift fun strategy _ => .lift fun v _ =>
    .ite (preserves_pure _) ((preserves_contributionOf x linkType).bind fun c => .ite ?_ ?_)) hs
  · exact preserves_mergedElements hp (OnlyBase.relations hs hrel) x groups c
  · exact preserves_aloneElements x groups c

theorem buildConsumption_spares (hp : Paired relations) (hrel : HasRelations layers relations) (hb : IsBaseLayer layers)
    (settings : Settings) :
    BuildState.Spares layers (stateAfter (buildConsumption { settings, layers })) := by
  rw [buildConsumption_eq hb]
  have hstart : BuildState.Spares layers { settings, layers } := fun _ _ => rfl
  exact ((Preserves.mapM fun x _ => preserves_buildElements hp hrel x _).bind fun _ => preserves_pure _) hstart

end Building

/-! ## Names -/

def elementNames (layers : Value) : Outcome (List Value) := do
  (← (← layers.entry consumptionKey).members).mapM (·.entry "name")

def listedNames (s : Session) : Outcome (List Value) := do elementNames (← s.settings.entry Setting.layers)

theorem elementNames_ok : elementNames layers = .ok names ↔ ∃ v, layers.at? [.key consumptionKey] = some v ∧
      ∃ es, v.members = .ok es ∧ List.Forall₂ (fun e n => e.entry "name" = .ok n) es names := by
  simp only [elementNames, bind_ok, Value.entry_eq_ok_iff, mapM_ok]

theorem elementNames_congr (h : l.at? [.key consumptionKey] = layers.at? [.key consumptionKey]) (hn : elementNames layers = .ok names) :
    elementNames l = .ok names := by
  rw [elementNames_ok, h]
  exact elementNames_ok.1 hn

theorem at?_refreshElement (layers : Value) (origin : String × String) (e : Value) {k : String} (hgroups : k ≠ "groups")
    (hsql : k ≠ "sql") : (refreshElement layers origin e).at? [.key k] = e.at? [.key k] := by
  have h1 : Place.Apart [.key "groups"] [.key k] := .inl (by simpa using Ne.symm hgroups)
  have h2 : ∀ part, Place.Apart [.key "sql", .key part] [.key k] := fun part => .inl (by simpa using Ne.symm hsql)
  simp only [refreshElement, List.foldl_cons, List.foldl_nil, Value.at?_modifyAt_of_apart _ (h2 _), Value.at?_modifyAt_of_apart _ h1]

theorem refreshElements_names (layers : Value) {es : List Value} (h : List.Forall₂ (fun e n => Value.entry e "name" = .ok n) es names)
    (origins : List (String × String)) :
    List.Forall₂ (fun e n => Value.entry e "name" = .ok n)
      ((es.zip origins).map (fun p => refreshElement layers p.2 p.1) ++ es.drop origins.length) names := by
  induction h generalizing origins with
  | nil => cases origins <;> exact .nil
  | @cons e n es names he hes ih =>
    cases origins with
    | nil => exact .cons he hes
    | cons o os =>
      refine .cons ?_ (ih os)
      rw [Value.entry_eq_ok_iff] at he ⊢
      rw [at?_refreshElement _ _ _ (by decide) (by decide), he]

theorem refreshGroups_names (origins : List (String × String)) (h : elementNames layers = .ok names) :
    elementNames (refreshGroups origins layers) = .ok names := by
  obtain ⟨v, hv, es, hes, hall⟩ := elementNames_ok.1 h
  rw [elementNames_ok, refreshGroups, Value.at?_modifyAt_self, hv]
  cases v with
  | list xs =>
    cases hes
    exact ⟨_, rfl, _, rfl, refreshElements_names layers hall origins⟩
  | _ => exact ⟨_, rfl, es, hes, hall⟩

/-! ## Sessions -/

def Session.Lists (names : List Value) (s : Session) : Prop := listedNames s = .ok names

theorem Session.lists_iff : s.Lists names ↔ ∃ layers, s.settings.entry Setting.layers = .ok layers ∧ elementNames layers = .ok names := by
  rw [Session.Lists, listedNames, bind_ok]

theorem preserves_onTrace (names : List Value) (c : Change α) : Preserves (Session.Lists names) (Job.onTrace c) := by
  refine .get fun s hs => ?_
  cases hc : c s.trace <;> exact hs

theorem preserves_layers (names : List Value) : Preserves (Session.Lists names) Job.layers := .get fun _ hs => preserves_lift _ hs

theorem preserves_processCall (names : List Value) (own : Bool) (algo function : String) :
    Preserves (Session.Lists names) (processCall own algo function) := by
  refine (preserves_onTrace names _).bind fun p => .get fun t ht => ?_
  refine after_bind (preserves_layers names ht) fun l t' hrun _ => ?_
  obtain ⟨hl, rfl⟩ := Job.layers_ok.1 hrun
  obtain ⟨l', hl', hnames⟩ := Session.lists_iff.1 ht
  obtain rfl := ok_unique hl hl'
  have hspares : BaseWork.Spares l (stateAfter (generateBase t.settings (.text algo) (.text function) p
      { functions := p.functions, layers := l })) := preserves_generateBase _ _ _ p fun _ _ => rfl
  cases hg : generateBase t.settings (.text algo) (.text function) p { functions := p.functions, layers := l } <;> rw [hg] at hspares <;>
    exact Session.lists_iff.2 ⟨_, Settings.entry_set_self .., elementNames_congr (hspares _ (by decide)) hnames⟩

theorem preserves_processAlgos (names : List Value) (raiseOnError own : Bool) (trace : Value) :
    Preserves (Session.Lists names) (processAlgos raiseOnError own trace) := by
  refine .lift fun algos _ => .forM fun algo _ => .lift fun name _ => .ite (.get fun t ht => ?_) (preserves_pure _)
  refine after_lift ht fun _ _ => after_lift ht fun functions _ => Preserves.forM (fun function _ => .get fun t ht => ?_) ht
  refine after_lift ht fun _ _ => after_lift ht fun call _ => Preserves.ite (.lift fun b _ => ?_) (preserves_pure _) ht
  exact .ite (preserves_processCall ..) (.ite (preserves_throw _) fun _ hs => hs)

theorem stateAfter_grouping (step : GroupStep α) (hl : s.settings.entry Setting.layers = .ok l) : ∃ n, stateAfter (Job.grouping step s) =
      { s with settings := s.settings.set Setting.layers (stateAfter (step { layers := l, nextId := s.nextId })).layers
               nextId := n } := by
  rw [Job.grouping, run_bind_of_ok (Job.layers_ok.2 ⟨hl, rfl⟩), run_get_bind]
  cases hg : step { layers := l, nextId := s.nextId } <;> exact ⟨_, rfl⟩

theorem stateAfter_building (step : BuildStep α) (hl : s.settings.entry Setting.layers = .ok l) :
    ∃ settings trace, stateAfter (Job.building step s) =
      { s with settings := Fields.set Setting.layers
                 (relatedTypes (stateAfter (step { layers := l, settings := s.settings })).layers) settings
               trace } := by
  rw [Job.building, run_bind_of_ok (Job.layers_ok.2 ⟨hl, rfl⟩), run_get_bind]
  cases hg : step { layers := l, settings := s.settings } <;> exact ⟨_, _, rfl⟩

theorem preserves_showGroups (names : List Value) : Preserves (Session.Lists names) showGroups := by
  intro s hs
  refine after_bind (preserves_layers names hs) fun l t hrun _ => ?_
  obtain ⟨hl, rfl⟩ := Job.layers_ok.1 hrun
  obtain ⟨l', hl', hnames⟩ := Session.lists_iff.1 hs
  obtain rfl := ok_unique hl hl'
  exact Session.lists_iff.2 ⟨_, Settings.entry_set_self .., refreshGroups_names s.shownGroups hnames⟩

theorem relatedTypes_names (h : elementNames layers = .ok names) : elementNames (relatedTypes layers) = .ok names := by
  have hapart : Place.Apart [.key relationsKey] [.key consumptionKey] := .inl (by decide)
  exact elementNames_congr (Value.at?_modifyAt_of_apart _ hapart layers) h

theorem relateAndBuild_names (hs : s.Lists names) (hl : s.settings.entry Setting.layers = .ok layers) (hb : IsBaseLayer layers)
    (hr : HasRecords layers) : (stateAfter (relateAndBuild s)).Lists names := by
  obtain ⟨l', hl', hnames⟩ := Session.lists_iff.1 hs
  obtain rfl := ok_unique hl hl'
  have hrun := Job.layers_ok.2 ⟨hl, rfl⟩
  rw [relateAndBuild, run_bind_of_ok hrun]
  refine after_lift hs fun relations hrel => ?_
  rw [run_bind_of_ok hrun]
  refine after_lift hs fun l hset => ?_
  have hbase : l.at? [.key baseKey] = layers.at? [.key baseKey] := Value.at?_setEntry_ne hset (by decide)
  have hhas : HasRelations l relations := Value.at?_setEntry_self hset
  have hpair := buildRelations_paired hb hrel
  have hnames1 : elementNames l = .ok names := elementNames_congr (Value.at?_setEntry_ne hset (by decide)) hnames
  -- the session that groups
  generalize hs1 : ({ s with settings := s.settings.set Setting.layers l } : Session) = s1
  have hl1 : s1.settings.entry Setting.layers = .ok l := by rw [← hs1, Settings.entry_set_self]
  rw [Job.keepLayers, run_bind_of_ok (run_modify_ok (a := ()).2 hs1)]
  refine after_bind ?_ fun _ t hgroup ht => ?_
  · rw [stateAfter_finally]
    refine preserves_showGroups names ?_
    obtain ⟨rows, hrows⟩ := hb.congr hbase
    rw [run_get_bind]
    obtain ⟨n, hn⟩ := stateAfter_grouping (setGroups s1.settings) hl1
    rw [hn]
    exact Session.lists_iff.2 ⟨_, Settings.entry_set_self ..,
      elementNames_congr (setGroups_spares hpair hhas s1.settings hrows s1.nextId _ (by decide)) hnames1⟩
  -- the session that builds
  · obtain ⟨t1, _, hgrouping, hshow⟩ := run_finally_ok.1 hgroup
    rw [run_get_bind] at hgrouping
    obtain ⟨l1, g, hl1', hg, rfl⟩ := Job.grouping_ok hgrouping
    obtain rfl := ok_unique hl1 hl1'
    have hrl : HasRecords l := fun ho => hr (by rw [← procedureAt?_congr hbase]; exact ho)
    have halike := (setGroups_regrouped hg (hb.congr hbase) hpair hhas).refreshed (hb.congr hbase) hrl s1.shownGroups
    obtain ⟨l2, hl2, rfl⟩ := showGroups_ok hshow
    obtain rfl := ok_unique (Settings.entry_set_self ..) hl2
    obtain ⟨l3, hl3, hnames3⟩ := Session.lists_iff.1 ht
    obtain rfl := ok_unique (Settings.entry_set_self ..) hl3
    obtain ⟨settings, trace, hbuilt⟩ := stateAfter_building buildConsumption hl3
    rw [hbuilt]
    have hspares := buildConsumption_spares hpair (halike.relations.trans hhas) halike.base'
    exact Session.lists_iff.2 ⟨_, Settings.entry_set_self .., relatedTypes_names (elementNames_congr (hspares _ _ (by decide)) hnames3)⟩

theorem fillConsumption_fails (hs : s.Lists names) (hl : s.settings.entry Setting.layers = .ok layers) (hb : IsBaseLayer layers)
    (hr : HasRecords layers) : Fails (Session.Lists names) fillConsumption s := by
  refine fails_bind (relateAndBuild_names hs hl hb hr) fun es t _ ht => fails_bind (preserves_layers names ht) fun l t' _ ht' =>
    fails_bind (preserves_lift _ ht') fun l' t'' _ _ => ?_
  -- the new elements are put in place, and nothing can fail then
  intro e s' h
  cases h

theorem processTrace_fails (hs : s.Lists names) (raiseOnError logStatements own : Bool)
    (hbase : ∀ {t0 t}, (t0 = s ∨ ∃ text, Job.report "debug" text s = .ok () t0) → processAlgos raiseOnError own s.trace t0 = .ok () t →
        ∃ layers, t.settings.entry Setting.layers = .ok layers ∧ IsBaseLayer layers ∧ HasRecords layers) :
    Fails (Session.Lists names) (processTrace raiseOnError logStatements own) s := by
  refine fails_bind (preserves_get hs) fun _ t hget _ => ?_
  cases hget
  refine fails_bind (preserves_layers names hs) fun _ t hrun _ => ?_
  obtain ⟨-, rfl⟩ := Job.layers_ok.1 hrun
  have hrest : ∀ t0, t0.Lists names → (t0 = s ∨ ∃ text, Job.report "debug" text s = .ok () t0) →
      Fails (Session.Lists names) (do processAlgos raiseOnError own s.trace; fillConsumption) t0 := by
    intro t0 ht0 hstart
    refine fails_bind (preserves_processAlgos names _ _ _ ht0) fun _ t hrun ht => ?_
    obtain ⟨layers, hl, hb, hr⟩ := hbase hstart hrun
    exact fillConsumption_fails ht hl hb hr
  cases htruthy : s.trace.isTruthy with
  | false => exact (preserves_pure ()).fails hs
  | true =>
    cases logStatements with
    | false => exact hrest s hs (.inl rfl)
    | true =>
      refine fails_bind (preserves_lift _ hs) fun text t hrun _ => ?_
      cases (run_lift_ok.1 hrun).2
      exact fails_bind hs fun _ t0 hrun ht0 => hrest t0 ht0 (.inr ⟨text, hrun⟩)

end TraceArtifacts
