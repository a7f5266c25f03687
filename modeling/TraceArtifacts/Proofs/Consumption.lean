import TraceArtifacts.Proofs.Contribution
import TraceArtifacts.Proofs.Grouping

/-!
# Proofs: the elements of the consumption layer

Where nothing is merged, each procedure makes one element, in the order of the base layer, and marks itself as taken in; the
procedures that are still to come are as they were (`buildConsumption_single`).
-/

namespace TraceArtifacts

variable {e : Element} {es : List Element} {relations : List Relation} {x : ProcedureName} {s s' : Session} {u : Unit}
  {groups l layers linkType o t : Value}

/-! ## Marks -/

abbrev mergedKey : String := "cons_processed"

def Unmerged (o : Value) : Prop := ∀ v, o.entryOr mergedKey .null = .ok v → v.isTruthy = false

def IsMarked (layers : Value) (y : ProcedureName) : Prop :=
  ∃ o v, procedureAt? layers y = some o ∧ o.entryOr mergedKey .null = .ok v ∧ v.isTruthy = true

theorem markMerged_ok {s s' : BuildState} (h : markMerged (addressOf x) s = .ok u s') :
    ∃ o o', procedureAt? s.layers x = some o ∧ o.SameBut [mergedKey] o' ∧ s' = { s with layers := (addressOf x).put o' s.layers } := by
  simp only [markMerged, run_parts, run_modify_ok, address_object_ok] at h
  obtain ⟨o, ho, o', ho', rfl⟩ := h
  exact ⟨o, o', ho, Value.sameBut_setEntry ho', rfl⟩

/-! ## The element of one procedure -/

def elementOf (x : ProcedureName) (name : String) (groups : Value) (c : Contribution) : Element where
  name := "cons_" ++ name
  origin := x
  single := true
  inputs := c.inputs
  body := [.call c.call]
  outputs := c.outputs
  groups := groups

theorem singleElement_ok {c : Contribution} (h : singleElement (.text x.1) (.text x.2) groups c = .ok e) :
    ∃ n, c.procedure = .text n ∧ e = elementOf x n groups c := by
  simp only [singleElement, Value.asTextReceiver, bind_ok, pure_ok, Except.ok.injEq, exists_eq_left'] at h
  obtain ⟨n, hn, rfl⟩ := h
  exact ⟨n, asText_ok.1 hn, rfl⟩

theorem aloneElements_ok {c : Contribution} {s s' : BuildState} (h : aloneElements (.text x.1) (.text x.2) groups c s = .ok es s') :
    ∃ n o o', c.procedure = .text n ∧ es = [elementOf x n groups c] ∧ procedureAt? s.layers x = some o ∧ o.SameBut [mergedKey] o' ∧
      s' = { s with layers := (addressOf x).put o' s.layers } := by
  simp only [aloneElements, run_parts, run_pure_ok] at h
  obtain ⟨e, he, _, t, ht, rfl, rfl⟩ := h
  obtain ⟨n, hn, rfl⟩ := singleElement_ok he
  obtain ⟨o, o', ho, hs, ht⟩ := markMerged_ok ht
  exact ⟨n, o, o', hn, rfl, ho, hs, ht⟩

theorem buildElements_cases {s s' : BuildState} (h : buildElements (.text x.1) (.text x.2) linkType s = .ok es s') :
    ∃ o groups m, procedureAt? s.layers x = some o ∧ shownGroupsOf o = .ok groups ∧ s.settings.entry Setting.mergeStrategy = .ok m ∧
      (IsMarked s.layers x ∧ es = [] ∧ s' = s ∨ ¬ IsMarked s.layers x ∧ ∃ c t, contributionOf (addressOf x) linkType s = .ok c t ∧
          (if m.same (.int mergePartitions) then mergedElements s.layers (.text x.1) (.text x.2) groups c
            else aloneElements (.text x.1) (.text x.2) groups c) t = .ok es s') := by
  simp only [buildElements, run_parts] at h
  obtain ⟨o, ho, groups, hgroups, m, hm, v, hv, h⟩ := h
  have ho' : procedureAt? s.layers x = some o := address_object_ok.1 ho
  refine ⟨o, groups, m, ho', hgroups, hm, ?_⟩
  by_cases htruthy : v.isTruthy = true
  · rw [if_pos htruthy] at h
    cases h
    exact .inl ⟨⟨o, v, ho', hv, htruthy⟩, rfl, rfl⟩
  · rw [if_neg htruthy] at h
    obtain ⟨c, t, hc, h⟩ := run_bind_ok.1 h
    refine .inr ⟨?_, c, t, hc, h⟩
    rintro ⟨o1, v1, ho1, hv1, htruthy1⟩
    obtain rfl := Option.mem_unique ho' ho1
    obtain rfl := ok_unique hv hv1
    exact htruthy htruthy1

theorem mergedElements_cases {c : Contribution} {t t' : BuildState}
    (h : mergedElements layers (.text x.1) (.text x.2) groups c t = .ok es t') :
    es = [] ∧ t' = t ∨ aloneElements (.text x.1) (.text x.2) groups c t = .ok es t' ∨
      ∃ n children, c.procedure = .text n ∧ containsText (lowerText n) "partition" = true ∧
        links layers .outgoing (.text x.1) (.text x.2) = .ok children ∧
        partitionElements (.text x.1) (.text x.2) groups c children t = .ok es t' := by
  simp only [mergedElements, run_parts] at h
  obtain ⟨parents, -, name, hname, h⟩ := h
  split at h
  next hpart =>
    simp only [run_parts] at h
    obtain ⟨children, hchildren, h⟩ := h
    split at h
    · exact .inr (.inl h)
    · exact .inr (.inr ⟨name, children, asTextReceiver_ok.1 hname, hpart, hchildren, h⟩)
  next =>
    simp only [run_parts] at h
    obtain ⟨b, -, h⟩ := h
    split at h
    · cases h
      exact .inl ⟨rfl, rfl⟩
    · exact .inr (.inl h)

def MergesNothing (st : Settings) : Prop :=
  ∀ m, st.entry Setting.mergeStrategy = .ok m → m.same (.int mergePartitions) = false

theorem mergesNothing_of_entry {st : Settings} {m : Value} (h : st.entry Setting.mergeStrategy = .ok m)
    (hm : m.same (.int mergePartitions) = false) : MergesNothing st := by
  intro m' hm'
  rwa [← ok_unique h hm']

theorem buildElements_single {s s' : BuildState} (h : buildElements (.text x.1) (.text x.2) linkType s = .ok es s')
    (hm : MergesNothing s.settings) (ho : procedureAt? s.layers x = some o) (hu : Unmerged o) :
    ∃ c n groups o', Contributes s.layers linkType x o c ∧ c.procedure = .text n ∧
      shownGroupsOf o = .ok groups ∧ es = [elementOf x n groups c] ∧ o.SameBut [mergedKey] o' ∧
      s'.layers = (addressOf x).put o' s.layers ∧ SameSettings s.settings s'.settings := by
  obtain ⟨o1, groups, m, ho1, hgroups, hm1, ⟨⟨o2, v, ho2, hv, htruthy⟩, -⟩ | ⟨-, c, t, hc, h⟩⟩ := buildElements_cases h
  · obtain rfl : o = o2 := Option.mem_unique ho ho2
    rw [hu v hv] at htruthy
    cases htruthy
  obtain rfl : o = o1 := Option.mem_unique ho ho1
  rw [hm m hm1, if_neg Bool.false_ne_true] at h
  obtain ⟨hl, hst, o2, ho2, hcon⟩ := contributionOf_ok hc
  obtain rfl : o = o2 := Option.mem_unique ho ho2
  obtain ⟨n, o3, o', hn, rfl, ho3, hs, rfl⟩ := aloneElements_ok h
  rw [hl] at ho3
  obtain rfl : o = o3 := Option.mem_unique ho ho3
  exact ⟨c, n, groups, o', hcon, hn, hgroups, rfl, hs, by rw [hl], hst⟩

/-! ## The elements of all procedures -/

theorem buildConsumption_eq {s : BuildState} (hb : IsBaseLayer s.layers) : buildConsumption s = (do
      return (← (procedureNames s.layers).mapM fun x =>
        buildElements (.text x.1) (.text x.2) (.text storedLink)).flatten : BuildStep _) s := by
  obtain ⟨rows, hrows⟩ := hb
  have hstart : buildConsumption s = (do
      let found ← (rows.map fun f : String × Value => Value.text f.1).mapM fun algo => do
        let functions ← liftM ((Value.object rows).item algo)
        (← liftM functions.members).mapM fun function =>
          buildElements algo function (.text storedLink)
      return (found.map List.flatten).flatten : BuildStep _) s := by
    unfold buildConsumption
    rw [run_get_bind, run_lift_bind_of_ok hrows.entry, run_lift_bind_of_ok (members_object rows)]
  rw [hstart, List.mapM_map, procedureNames, hrows.procedures, List.mapM_map]
  refine congrFun (mapM_rows (m := BuildStep) fun p hp => ?_) s
  obtain ⟨fns, hfns, -⟩ := hrows.row p hp
  rw [Function.comp, hrows.item hp, rowProcedures, hfns]
  simp only [lift_ok_eq, pure_bind, members_object, List.mapM_map]
  rfl

def SingleFrom (layers : Value) (x : ProcedureName) (e : Element) : Prop :=
  ∃ l o c n groups, Alike [mergedKey] layers l ∧ procedureAt? layers x = some o ∧
    Contributes l (.text storedLink) x o c ∧ c.procedure = .text n ∧
    shownGroupsOf o = .ok groups ∧ e = elementOf x n groups c

theorem MergesNothing.sameSettings {st st' : Settings} (h : MergesNothing st) (hs : SameSettings st st') : MergesNothing st' := by
  intro m hm
  rw [hs _ (by decide)] at hm
  exact h m hm

theorem forall₂_flatten_singles {R : α → β → Prop} {xs : List α} {yss : List (List β)}
    (h : List.Forall₂ (fun x ys => ∃ y, ys = [y] ∧ R x y) xs yss) :
    List.Forall₂ R xs yss.flatten := by
  induction h with
  | nil => exact .nil
  | cons hx _ ih =>
    obtain ⟨y, rfl, hR⟩ := hx
    exact .cons hR ih

theorem buildConsumption_single {s s' : BuildState} (h : buildConsumption s = .ok es s') (hb : IsBaseLayer s.layers)
    (hr : HasRecords s.layers) (hm : MergesNothing s.settings) (hu : ∀ {x o}, procedureAt? s.layers x = some o → Unmerged o) :
    List.Forall₂ (SingleFrom s.layers) (procedureNames s.layers) es ∧
      Alike [mergedKey] s.layers s'.layers ∧ SameSettings s.settings s'.settings := by
  rw [buildConsumption_eq hb] at h
  obtain ⟨ess, t, hrun, h⟩ := run_bind_ok.1 h
  cases h
  -- procedures that are still to come are as they were at the start
  let I (rest : List ProcedureName) (t : BuildState) : Prop :=
    rest.Nodup ∧ Alike [mergedKey] s.layers t.layers ∧ SameSettings s.settings t.settings ∧
      ∀ y ∈ rest, ∃ o, procedureAt? s.layers y = some o ∧ procedureAt? t.layers y = some o
  have hstart : I (procedureNames s.layers) s := by
    refine ⟨procedureNames_nodup hb, .refl _ hb hr, .refl _, fun y hy => ?_⟩
    obtain ⟨o, ho⟩ := (mem_procedureNames hb).1 hy
    exact ⟨o, ho, ho⟩
  have hstep : ∀ x rest t es t', I (x :: rest) t → buildElements (.text x.1) (.text x.2) (.text storedLink) t = .ok es t' →
      I rest t' ∧ ∃ e, es = [e] ∧ SingleFrom s.layers x e := by
    rintro x rest t es t' ⟨hnd, halike, hst, hrest⟩ hx
    obtain ⟨o, ho, hot⟩ := hrest x (.head _)
    obtain ⟨c, n, groups, o', hc, hn, hg, rfl, hs, hl, hst'⟩ := buildElements_single hx (hm.sameSettings hst) hot (hu ho)
    refine ⟨⟨(List.nodup_cons.1 hnd).2, ?_, hst.trans hst', fun y hy => ?_⟩, _, rfl, t.layers, o, c, n, groups, halike, ho, hc, hn, hg, rfl⟩
    · rw [hl]
      exact halike.trans (.put halike.base' halike.hasRecords hot hs)
    · obtain ⟨oy, hoy, hoyt⟩ := hrest y (.tail _ hy)
      have hne : y ≠ x := fun e => (List.nodup_cons.1 hnd).1 (e ▸ hy)
      exact ⟨oy, hoy, by rw [hl, procedureAt?_put_ne hne, hoyt]⟩
  obtain ⟨⟨-, halike, hst, -⟩, hall⟩ := mapM_run_ok hstep hstart hrun
  exact ⟨forall₂_flatten_singles hall, halike, hst⟩

/-! ## Relating, grouping and building -/

theorem Settings.entry_set_self (st : Settings) (k : String) (v : Value) : Settings.entry (Fields.set k v st) k = .ok v := by
  show need k ((Fields.set k v st).lookup k) = _
  rw [Fields.lookup_set_self]
  rfl

theorem Settings.entry_set_ne {k key : String} (h : k ≠ key) (st : Settings) (v : Value) :
    Settings.entry (Fields.set key v st) k = st.entry k := by
  show need k ((Fields.set key v st).lookup k) = need k (st.lookup k)
  rw [Fields.lookup_set_ne h]

theorem Job.layers_ok : Job.layers s = .ok l s' ↔ s.settings.entry Setting.layers = .ok l ∧ s = s' := by
  simp only [Job.layers, Job.setting, run_bind_ok, run_get_ok, run_lift_ok]
  constructor
  · rintro ⟨_, _, ⟨rfl, rfl⟩, h⟩
    exact h
  · exact fun h => ⟨s, s, ⟨rfl, rfl⟩, h⟩

theorem Job.grouping_ok {step : GroupStep α} {a : α} (h : Job.grouping step s = .ok a s') :
    ∃ l g, s.settings.entry Setting.layers = .ok l ∧ step { layers := l, nextId := s.nextId } = .ok a g ∧
      s' = { s with settings := s.settings.set Setting.layers g.layers, nextId := g.nextId } := by
  simp only [Job.grouping, Job.layers, Job.setting, run_parts] at h
  obtain ⟨l, hl, h⟩ := h
  cases hg : step { layers := l, nextId := s.nextId } with
  | error e g =>
    simp only [hg, run_bind_ok, run_throw_ok, and_false, exists_false] at h
  | ok b g =>
    simp only [hg, Job.keepLayers, run_bind_ok, run_modify_ok, run_pure_ok] at h
    obtain ⟨_, _, ⟨_, _, rfl, rfl⟩, rfl, rfl⟩ := h
    exact ⟨l, g, hl, hg, rfl⟩

theorem Job.building_ok {step : BuildStep α} {a : α} (h : Job.building step s = .ok a s') : ∃ l b, s.settings.entry Setting.layers = .ok l ∧
      step { layers := l, settings := s.settings } = .ok a b ∧
      s' = { s with settings := b.settings.set Setting.layers (relatedTypes b.layers)
                    trace := tracedTypes b.layers s.trace } := by
  simp only [Job.building, Job.layers, Job.setting, run_parts] at h
  obtain ⟨l, hl, h⟩ := h
  cases hg : step { layers := l, settings := s.settings } with
  | error e b =>
    simp only [hg, run_bind_ok, run_throw_ok, and_false, exists_false] at h
  | ok c b =>
    simp only [hg, Job.keepLayers, run_bind_ok, run_modify_ok, run_pure_ok] at h
    obtain ⟨_, _, ⟨_, _, rfl, rfl⟩, rfl, rfl⟩ := h
    exact ⟨l, b, hl, hg, rfl⟩

theorem showGroups_ok (h : showGroups s = .ok u s') : ∃ l, s.settings.entry Setting.layers = .ok l ∧
      s' = { s with settings := s.settings.set Setting.layers (refreshGroups s.shownGroups l) } := by
  simp only [showGroups, Job.layers, Job.setting, Job.keepLayers, run_parts, run_modify_ok] at h
  obtain ⟨l, hl, rfl⟩ := h
  exact ⟨l, hl, rfl⟩

theorem relateAndBuild_ok (h : relateAndBuild s = .ok es s') (hl : s.settings.entry Setting.layers = .ok layers) :
    ∃ relations l g st b, buildRelations layers = .ok relations ∧
      layers.setEntry relationsKey (.list (relations.map Relation.toValue)) = .ok l ∧
      setGroups (s.settings.set Setting.layers l) { layers := l, nextId := s.nextId } = .ok () g ∧
      (∀ k, k ≠ Setting.layers → Settings.entry st k = s.settings.entry k) ∧
      buildConsumption { settings := st, layers := refreshGroups s.shownGroups g.layers } = .ok es b ∧
      s' = { s with settings := b.settings.set Setting.layers (relatedTypes b.layers)
                    trace := tracedTypes b.layers s.trace
                    nextId := g.nextId } := by
  simp only [relateAndBuild, run_parts, run_finally_ok, Job.layers, Job.setting, Job.keepLayers, run_modify_ok] at h
  obtain ⟨l1, hl1, relations, hrel, l2, hl2, l, hset, _, _, rfl, _, t, ⟨t1, _, hg, hshow⟩, hb⟩ := h
  obtain rfl : layers = l1 := ok_unique hl hl1
  obtain rfl : layers = l2 := ok_unique hl hl2
  obtain ⟨l3, g, hl3, hg, rfl⟩ := Job.grouping_ok hg
  obtain rfl : l = l3 := ok_unique (Settings.entry_set_self _ _ _) hl3
  obtain ⟨l4, hl4, rfl⟩ := showGroups_ok hshow
  obtain rfl : g.layers = l4 := ok_unique (Settings.entry_set_self _ _ _) hl4
  obtain ⟨l5, b, hl5, hb, rfl⟩ := Job.building_ok hb
  obtain rfl : _ = l5 := ok_unique (Settings.entry_set_self _ _ _) hl5
  refine ⟨relations, l, g, _, b, hrel, hset, hg, fun k hk => ?_, hb, rfl⟩
  rw [Settings.entry_set_ne hk, Settings.entry_set_ne hk, Settings.entry_set_ne hk]

structure FreshBase (layers : Value) : Prop where
  base : IsBaseLayer layers
  records : HasRecords layers
  unmerged : ∀ {x o}, procedureAt? layers x = some o → Unmerged o

theorem FreshBase.not_marked (hf : FreshBase layers) (y : ProcedureName) : ¬ IsMarked layers y := by
  rintro ⟨o, v, ho, hv, htruthy⟩
  rw [hf.unmerged ho v hv] at htruthy
  cases htruthy

theorem freshBase_of_rows {rows : Fields} (hrows : HasRows layers rows)
    (h : ∀ p ∈ proceduresOf layers, ∃ fs, p.2.2 = .object fs ∧ fs.lookup mergedKey = none) : FreshBase layers := by
  have hmem : ∀ {x o}, procedureAt? layers x = some o → ∃ fs, o = .object fs ∧ fs.lookup mergedKey = none :=
    fun ho => h _ ((mem_proceduresOf ⟨rows, hrows⟩).2 ho)
  refine ⟨⟨rows, hrows⟩, fun ho => ?_, fun ho v hv => ?_⟩
  · obtain ⟨fs, rfl, -⟩ := hmem ho
    exact ⟨fs, rfl⟩
  · obtain ⟨fs, rfl, hfs⟩ := hmem ho
    rw [Value.entryOr_object, hfs] at hv
    cases hv
    rfl

theorem FreshBase.alike (h : FreshBase layers) (ha : Alike ["groups"] layers l) : FreshBase l where
  base := ha.base'
  records := ha.hasRecords
  unmerged := fun ho => by
    obtain ⟨o, ho', hs⟩ := ha.procedure' ho
    intro v hv
    rw [hs.entryOr (by decide)] at hv
    exact h.unmerged ho' v hv

theorem FreshBase.congr (h : FreshBase layers) (hbase : l.at? [.key baseKey] = layers.at? [.key baseKey]) : FreshBase l where
  base := h.base.congr hbase
  records := fun ho => h.records (by rw [← procedureAt?_congr hbase]; exact ho)
  unmerged := fun ho => h.unmerged (by rw [← procedureAt?_congr hbase]; exact ho)

theorem buildRelations_paired (hb : IsBaseLayer layers) (h : buildRelations layers = .ok relations) : Paired relations := by
  intro r hr d
  obtain ⟨x, y, hj⟩ := buildRelations_grounded hb h hr
  cases d with
  | incoming => exact ⟨x, hj.fromPath⟩
  | outgoing => exact ⟨y, hj.toPath⟩

theorem at?_refreshGroups {k : String} (hk : k ≠ consumptionKey) (origins : List (String × String))
    (layers : Value) : (refreshGroups origins layers).at? [.key k] = layers.at? [.key k] := by
  have h : Place.Apart [.key consumptionKey] [.key k] := .inl (by simpa using Ne.symm hk)
  exact Value.at?_modifyAt_of_apart _ h layers

theorem refreshGroups_alike (hb : IsBaseLayer layers) (hr : HasRecords layers) (origins : List (String × String)) (keys : List String) :
    Alike keys layers (refreshGroups origins layers) :=
  .of_at keys hb hr (at?_refreshGroups (by decide) ..) (at?_refreshGroups (by decide) ..)

theorem Regrouped.refreshed {g : Value} (h : Regrouped l g) (hb : IsBaseLayer l) (hr : HasRecords l) (origins : List (String × String)) :
    Alike ["groups"] l (refreshGroups origins g) := by
  have hgroups := h.alike hb hr
  exact hgroups.trans (refreshGroups_alike hgroups.base' hgroups.hasRecords origins _)

theorem grouped_alike (hf : FreshBase layers) (hrel : buildRelations layers = .ok relations)
    (hl : layers.setEntry relationsKey (.list (relations.map Relation.toValue)) = .ok l) {settings : Settings} {n : Nat} {g : GroupState}
    (hg : setGroups settings { layers := l, nextId := n } = .ok u g) : HasRelations l relations ∧ FreshBase l ∧ Regrouped l g.layers := by
  have hhas : HasRelations l relations := Value.at?_setEntry_self hl
  have hfl : FreshBase l := hf.congr (Value.at?_setEntry_ne hl (by decide))
  exact ⟨hhas, hfl, setGroups_regrouped hg hfl.base (buildRelations_paired hf.base hrel) hhas⟩

/-- Procedures that were related and grouped are as they were but for their groups. -/
structure GroupedFrom (layers : Value) (relations : List Relation) (l grouped : Value) : Prop where
  base : l.at? [.key baseKey] = layers.at? [.key baseKey]
  alike : Alike ["groups"] l grouped
  fresh : FreshBase grouped
  noted : HasRelations grouped relations
  paired : Paired relations

theorem groupedFrom (hf : FreshBase layers) (hrel : buildRelations layers = .ok relations)
    (hl : layers.setEntry relationsKey (.list (relations.map Relation.toValue)) = .ok l) {settings : Settings} {n : Nat} {g : GroupState}
    (hg : setGroups settings { layers := l, nextId := n } = .ok u g) (origins : List (String × String)) :
    GroupedFrom layers relations l (refreshGroups origins g.layers) := by
  obtain ⟨hhas, hfl, hre⟩ := grouped_alike hf hrel hl hg
  have halike := hre.refreshed hfl.base hfl.records origins
  exact ⟨Value.at?_setEntry_ne hl (by decide), halike, hfl.alike halike, halike.relations.trans hhas, buildRelations_paired hf.base hrel⟩

theorem relateAndBuild_grouped (h : relateAndBuild s = .ok es s') (hl : s.settings.entry Setting.layers = .ok layers)
    (hf : FreshBase layers) :
    ∃ relations l g grouped st b, buildRelations layers = .ok relations ∧ l.at? [.key baseKey] = layers.at? [.key baseKey] ∧ Regrouped l g ∧
      grouped.at? [.key baseKey] = g.at? [.key baseKey] ∧ Alike ["groups"] l grouped ∧
      HasRelations grouped relations ∧
      (∀ k, k ≠ Setting.layers → Settings.entry st k = s.settings.entry k) ∧
      buildConsumption { settings := st, layers := grouped } = .ok es b ∧
      s'.settings = b.settings.set Setting.layers (relatedTypes b.layers) := by
  obtain ⟨relations, l, g, st, b, hrel, hset, hg, hst, hb, hs'⟩ := relateAndBuild_ok h hl
  obtain ⟨-, -, hre⟩ := grouped_alike hf hrel hset hg
  obtain ⟨hbase, halike, -, hhas, -⟩ := groupedFrom hf hrel hset hg s.shownGroups
  exact ⟨relations, l, g.layers, _, st, b, hrel, hbase, hre, at?_refreshGroups (by decide) .., halike, hhas, hst, hb,
    congrArg Session.settings hs'⟩

/-! ## Linked reads -/

theorem InputFrom.first {i : InputItem} (h : InputFrom layers linkType x t i) (hrel : HasRelations layers relations) :
    match relations.find? (Relation.isAtTable .incoming x (.text i.name)) with
    | none => i.link = none
    | some r => ∃ k, i.link = some k ∧ k.Follows layers .incoming true r ∧
        linkTarget linkType k = .ok i.source := by
  obtain ⟨ks, hks, hlink⟩ := h.link
  have hall := linksOfTable_ok hrel hks
  rw [← List.head?_filter]
  cases hf : relations.filter (Relation.isAtTable .incoming x (.text i.name)) with
  | nil =>
    rw [hf, List.forall₂_nil_left_iff] at hall
    rw [hlink, hall]
    rfl
  | cons r rs =>
    rw [hf, List.forall₂_cons_left_iff] at hall
    obtain ⟨k, ks', hk, -, rfl⟩ := hall
    exact ⟨k, hlink, linkOf_ok hk, h.source k hlink⟩

theorem linkTarget_stored {k : Link} {v : Value} (h : linkTarget (.text storedLink) k = .ok v) : v = k.dbObjectName := by
  have hitem : k.toValue.item (.text storedLink) = .ok k.dbObjectName := by
    obtain ⟨path, groups, direction, name, elementName, interfaceName, dbObjectName⟩ := k
    cases elementName <;> rfl
  have hkind : (Value.text storedLink).same (.text passedLink) = false := rfl
  rw [linkTarget, hitem, hkind] at h
  exact (Except.ok.inj h).symm

def Element.Fills (e : Element) (table : Value) : Prop :=
  ∃ o ∈ e.outputs, o.toValue.entry "sql_vars" = .ok (.list [table, table, o.name])

theorem SingleFrom.fills (h : SingleFrom layers x e) {name : Value} (ho : procedureAt? layers x = some o)
    (ht : TableOf "output_tables" o t) (hname : t.entry "dbobject_name" = .ok name) : e.Fills name := by
  obtain ⟨l, o', c, n, groups, -, ho', hc, -, -, rfl⟩ := h
  obtain rfl : o = o' := Option.mem_unique ho ho'
  obtain ⟨ts, us, tables, vars, hts, -, htables, -, houtputs⟩ := hc.outputs
  obtain ⟨ts', hts', ht⟩ := ht
  obtain rfl : ts = ts' := ok_unique hts hts'
  obtain ⟨u, hu, hut⟩ := forall₂_mem_left htables ht
  obtain rfl : name = u.dbObjectName := ok_unique hname hut.dbObjectName
  refine ⟨.table u, ?_, rfl⟩
  show _ ∈ c.outputs
  rw [houtputs]
  exact List.mem_append_left _ (List.mem_map_of_mem hu)

theorem SingleFrom.origin (h : SingleFrom layers x e) : e.origin = x := by
  obtain ⟨l, o, c, n, groups, -, -, -, -, -, rfl⟩ := h
  rfl

theorem SingleFrom.input (h : SingleFrom layers x e) (hrel : HasRelations layers relations) {i : InputItem} (hi : i ∈ e.inputs) :
    i.link.isSome = relations.any (Relation.isAtTable .incoming x (.text i.name)) ∧
      ∀ r, relations.find? (Relation.isAtTable .incoming x (.text i.name)) = some r → r.fromTable.entry "dbobject_name" = .ok i.source := by
  obtain ⟨l, o, c, n, groups, hl, -, hc, -, -, rfl⟩ := h
  obtain ⟨ts, -, hinputs⟩ := hc.inputs
  obtain ⟨t, -, ht⟩ := forall₂_mem_right hinputs hi
  have hfirst := ht.first (hl.relations.trans hrel)
  cases hfind : relations.find? (Relation.isAtTable .incoming x (.text i.name)) with
  | none =>
    rw [hfind] at hfirst
    refine ⟨?_, fun r hr => by simp at hr⟩
    rw [show i.link = none from hfirst]
    exact (List.any_eq_false.2 (List.find?_eq_none.1 hfind)).symm
  | some r =>
    rw [hfind] at hfirst
    obtain ⟨k, hk, hfollows, htarget⟩ := hfirst
    refine ⟨?_, fun r' hr' => ?_⟩
    · rw [hk]
      exact (List.any_eq_true.2 ⟨r, List.mem_of_find?_eq_some hfind, List.find?_some hfind⟩).symm
    · cases hr'
      rw [linkTarget_stored htarget]
      exact hfollows.dbObjectName

/-- The elements of a base layer with these relations: one for each procedure, in order and named after it, with an item for each of
its inputs. -/
structure Resolved (layers : Value) (relations : List Relation) (elements : List Element) : Prop where
  origins : elements.map Element.origin = procedureNames layers
  named : ∀ e ∈ elements, ∃ o n, procedureAt? layers e.origin = some o ∧
    procedureName o = .ok (.text n) ∧ e.toValue.entry "name" = .ok (.text ("cons_" ++ n))
  inputs : ∀ e ∈ elements, ∃ o ts, procedureAt? layers e.origin = some o ∧ partsUnder "input_tables" o = .ok ts ∧
    List.Forall₂ (fun t i => t.entry "interface_name" = .ok (.text i.name)) ts e.inputs
  linked : ∀ e ∈ elements, ∀ i ∈ e.inputs, i.toValue.entry "hasrel" =
    .ok (.bool (relations.any (Relation.isAtTable .incoming e.origin (.text i.name))))
  read : ∀ e ∈ elements, ∀ i ∈ e.inputs, ∀ r, relations.find? (Relation.isAtTable .incoming e.origin (.text i.name)) = some r →
      ∃ name, r.fromTable.entry "dbobject_name" = .ok name ∧ i.toValue.entry "sql_vars" = .ok (.list [name]) ∧
        ∃ e' ∈ elements, procedurePath e'.origin = r.fromPath ∧ e'.Fills name

/-- Without merging, the elements of a fresh base layer are complete and every linked input reads what an element fills. -/
theorem relateAndBuild_resolved {s s' : Session} {layers : Value} {elements : List Element}
    (h : relateAndBuild s = .ok elements s') (hl : s.settings.entry Setting.layers = .ok layers)
    (hf : FreshBase layers) (hm : MergesNothing s.settings) :
    ∃ relations, buildRelations layers = .ok relations ∧ Resolved layers relations elements := by
  obtain ⟨relations, l, g, st, b, hrel, hset, hg, hst, hb, -⟩ := relateAndBuild_ok h hl
  obtain ⟨hbase, halike, hf1, hhas, -⟩ := groupedFrom hf hrel hset hg s.shownGroups
  have hm1 : MergesNothing st := fun m hm' => hm m (by rw [← hst _ (by decide)]; exact hm')
  obtain ⟨hall, -, -⟩ := buildConsumption_single hb hf1.base hf1.records hm1 hf1.unmerged
  have hnames := halike.names.trans (procedureNames_congr hbase)
  refine ⟨relations, hrel, ?_, fun e he => ?_, fun e he => ?_, fun e he i hi => ?_, fun e he i hi r hr => ?_⟩
  -- origins
  · have horigin := List.forall₂_map_right_iff.2 (hall.imp fun x e he => he.origin.symm)
    rw [List.forall₂_eq_eq_eq] at horigin
    rw [← horigin, hnames]
  -- named
  · obtain ⟨x, -, l', o', c, n, groups, -, ho', hc, hn, -, rfl⟩ := forall₂_mem_right hall he
    obtain ⟨o, ho, hs⟩ := halike.procedure' ho'
    refine ⟨o, n, by rw [← procedureAt?_congr hbase]; exact ho, ?_, rfl⟩
    rw [← hn, ← hc.procedure, procedureName, procedureName, hs.has (by decide), hs.entry (by decide)]
  -- inputs
  · obtain ⟨x, -, l', o', c, n, groups, -, ho', hc, -, -, rfl⟩ := forall₂_mem_right hall he
    obtain ⟨o, ho, hs⟩ := halike.procedure' ho'
    obtain ⟨ts, hts, hitems⟩ := hc.inputs
    rw [hs.partsUnder (by decide)] at hts
    exact ⟨o, ts, by rw [← procedureAt?_congr hbase]; exact ho, hts, hitems.imp fun t i hi => hi.name⟩
  -- linked
  · obtain ⟨x, -, hx⟩ := forall₂_mem_right hall he
    rw [hx.origin, ← (hx.input hhas hi).1]
    rfl
  -- read
  · obtain ⟨x, -, hx⟩ := forall₂_mem_right hall he
    rw [hx.origin] at hr
    have hsource := (hx.input hhas hi).2 r hr
    obtain ⟨y, z, hj⟩ := buildRelations_grounded hf.base hrel (List.mem_of_find?_eq_some hr)
    obtain ⟨w, hw, -, ts, hts, ht⟩ := hj.writer
    rw [← procedureAt?_congr hbase] at hw
    obtain ⟨w', hw', hs⟩ := halike.procedure hw
    rw [← hs.partsUnder (by decide)] at hts
    obtain ⟨e', he', hy⟩ := forall₂_mem_left hall ((mem_procedureNames halike.base').2 ⟨w', hw'⟩)
    exact ⟨i.source, hsource, rfl, e', he', by rw [hy.origin, hj.fromPath], hy.fills hw' ⟨ts, hts, ht⟩ hsource⟩

def sampleTable (name select : String) : Value :=
  .object [("interface_name", .text name), ("dbobject_name", .text ("\"" ++ name ++ "\"")),
    ("dbobject_name_schema", .text "S"), ("object_name", .text name), ("select", .text select),
    ("synonym", .null), ("cat", .null), ("table_type", .text "table (\"ID\" INTEGER)")]

def sampleProcedure (name : String) (inputs outputs : List Value) : Value :=
  .object [("input_tables", .list inputs), ("output_tables", .list outputs),
    ("metadata", .object [("procedure_name", .text name), ("algo_function_cat", .text name)])]

def sampleLayers : Value :=
  .object [(baseKey, .object [("Forest", .object [("Fit", sampleProcedure "fit" [sampleTable "data" "FROM S.D"] [sampleTable "model" "#M"]),
     ("Predict", sampleProcedure "predict" [sampleTable "new" "FROM S.E", sampleTable "fitted" "#M"] [sampleTable "result" "#R"])])])]

def sampleSession : Session where
  settings := Settings.builtin ++ [(Setting.mergeStrategy, .int 1),
    (Setting.groupStrategy, .int functionalGrouping), (Setting.layers, sampleLayers),
    (Setting.sourceMapping, .object [])]

theorem sampleLayers_fresh : FreshBase sampleLayers := by
  have hrows : HasRows sampleLayers (sampleLayers.fieldsAt baseKey) := by
    refine ⟨rfl, by decide, fun p hp => ?_⟩
    obtain rfl := List.mem_singleton.1 hp
    exact ⟨_, rfl, by decide⟩
  refine freshBase_of_rows hrows fun p hp => ?_
  rcases List.mem_cons.1 hp with rfl | hp
  · exact ⟨_, rfl, rfl⟩
  · obtain rfl := List.mem_singleton.1 hp
    exact ⟨_, rfl, rfl⟩

/-- The input of the procedure that applies the model reads the table that the other one fills. -/
theorem relateAndBuild_resolved_sample : ∃ elements s' relations, relateAndBuild sampleSession = .ok elements s' ∧ relations.length = 1 ∧
      Resolved sampleLayers relations elements := by
  obtain ⟨elements, s', h, -⟩ := exists_of_succeedsWith (r := relateAndBuild sampleSession) (t := fun _ _ => true) (by decide +kernel)
  have hm : MergesNothing sampleSession.settings := mergesNothing_of_entry rfl (by decide)
  obtain ⟨relations, hrel, hres⟩ := relateAndBuild_resolved h rfl sampleLayers_fresh hm
  have hone : (buildRelations sampleLayers).toOption.map List.length = some 1 := by decide +kernel
  rw [hrel] at hone
  exact ⟨elements, s', relations, h, Option.some.inj hone, hres⟩

end TraceArtifacts
