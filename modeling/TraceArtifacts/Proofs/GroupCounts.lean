import TraceArtifacts.Proofs.Consumption
import TraceArtifacts.Proofs.Identifiers
import TraceArtifacts.Proofs.Walks

/-!
# Proofs: how often groups take procedures in

A procedure whose function fits or predicts starts a group, and the group follows every chain of relations from it, in both
directions, without keeping track of where it has been.
-/

namespace TraceArtifacts

variable {s : GroupState} {x : ProcedureName} {r : Relation} {l o o' : Value}

/-! ## The groups of a procedure -/

def groupsOf (o : Value) : List Value := (o.get "groups").toList

def TakesGroups (o : Value) : Prop :=
  isGrouped o = .ok false ∨ ∃ gs, o.entry "groups" = .ok (.list gs)

theorem groupsOf_of_entry {gs : List Value} (h : o.entry "groups" = .ok (.list gs)) : groupsOf o = gs := by
  rw [groupsOf, Value.get_of_entry h]
  rfl

theorem isGrouped_object (fs : Fields) : isGrouped (.object fs) = .ok (((fs.lookup "groups").getD .null).isTruthy) := by
  rw [isGrouped, Value.has_object, Value.entry_object]
  cases fs.lookup "groups" <;> rfl

theorem toList_of_not_truthy {v : Value} (h : v.isTruthy = false) : v.toList = [] := by
  cases v with
  | list xs => simpa [Value.isTruthy, Value.toList] using h
  | _ => rfl

theorem withGroups_run (ho : ∃ fs, o = .object fs) (h : TakesGroups o) :
    ∃ o', withGroups o = .ok o' ∧ o'.entry "groups" = .ok (.list (groupsOf o)) := by
  obtain ⟨fs, rfl⟩ := ho
  have hgrouped := isGrouped_object fs
  cases htruthy : ((fs.lookup "groups").getD .null).isTruthy with
  | false =>
    refine ⟨.object (Fields.set "groups" (.list []) fs), ?_, ?_⟩
    · rw [withGroups, hgrouped, htruthy]
      rfl
    · have hnone : groupsOf (.object fs) = [] := toList_of_not_truthy htruthy
      rw [Value.entry_object, Fields.lookup_set_self, hnone]
      rfl
  | true =>
    refine ⟨.object fs, ?_, ?_⟩
    · rw [withGroups, hgrouped, htruthy]
      rfl
    · rcases h with h | ⟨gs, h⟩
      · rw [hgrouped, htruthy] at h
        simp at h
      · rw [groupsOf_of_entry h, h]

theorem addGroup_run (ho : ∃ fs, o = .object fs) (h : TakesGroups o) (g : Group) :
    ∃ o', addGroup g o = .ok o' ∧ o'.entry "groups" = .ok (.list (groupsOf o ++ [g.toValue])) := by
  obtain ⟨u, hu, hgroups⟩ := withGroups_run ho h
  obtain ⟨us, rfl, -⟩ := Value.entry_ok.1 hgroups
  refine ⟨.object (Fields.set "groups" (.list (groupsOf o ++ [g.toValue])) us), ?_, ?_⟩
  · rw [addGroup, hu]
    show (do
      let gs ← (Value.object us).entry "groups"
      (Value.object us).setEntry "groups" (← gs.append [g.toValue]) : Outcome Value) = _
    rw [hgroups]
    rfl
  · rw [Value.entry_object, Fields.lookup_set_self]
    rfl

/-! ## What groups admit -/

def GroupKind.admits : GroupKind → String → Bool
  | .fit, category => lowerText category ≠ GroupKind.predict.mark
  | .predict, category => lowerText category ≠ GroupKind.fit.mark
  | .fitPredict, _ => false
  | .unknown, _ => false

theorem joins_run {m : Value} {category : String} (hm : o.entry "metadata" = .ok m)
    (hc : m.entry "algo_function_cat" = .ok (.text category)) (kind : GroupKind) :
    joins o (.text kind.mark) = .ok (kind.admits category) := by
  unfold joins
  rw [hm]
  cases kind with
  | fit =>
    show (do return decide (lowerText (← (← m.entry "algo_function_cat").asTextReceiver) ≠ _) : Outcome Bool) = _
    rw [hc]
    rfl
  | predict =>
    show (do return decide (lowerText (← (← m.entry "algo_function_cat").asTextReceiver) ≠ _) : Outcome Bool) = _
    rw [hc]
    rfl
  | fitPredict => rfl
  | unknown => rfl

def categoryAt (layers : Value) (x : ProcedureName) : String :=
  match (procedureAt? layers x).map fun o => (o.get "metadata").get "algo_function_cat" with
  | some (Value.text category) => category
  | _ => ""

/-! ## Layers that can be grouped -/

/-- A base layer that can be grouped: its names can be told from paths, its procedures carry a name and a category and are in
no group, their tables carry the names that links show, and its relations are noted. -/
structure Groupable (layers : Value) (relations : List Relation) : Prop where
  base : IsBaseLayer layers
  slashFree : ∀ x ∈ procedureNames layers, SlashFree x
  described : ∀ {x o}, procedureAt? layers x = some o → ∃ m name category, o.entry "metadata" = .ok m ∧
    m.entry "procedure_name" = .ok name ∧ m.entry "algo_function_cat" = .ok (.text category)
  tables : ∀ {x o t}, procedureAt? layers x = some o → TableOf "input_tables" o t ∨ TableOf "output_tables" o t →
    ∃ i d, t.entry "interface_name" = .ok i ∧ t.entry "dbobject_name" = .ok d
  ungrouped : ∀ {x o}, procedureAt? layers x = some o → isGrouped o = .ok false
  built : buildRelations layers = .ok relations
  noted : HasRelations layers relations

def edgesAlong (d : Direction) (relations : List Relation) : Edges :=
  relations.map fun r => (nameOfPath (r.nearPath d), nameOfPath (r.farPath d))

def groupsAt (layers : Value) (y : ProcedureName) : List Value :=
  ((procedureAt? layers y).map groupsOf).getD []

structure Ready (layers l : Value) : Prop where
  alike : Alike ["groups"] layers l
  takes : ∀ {y o}, procedureAt? l y = some o → TakesGroups o

section Ready

variable {layers : Value} {relations : List Relation}

theorem Groupable.records (h : Groupable layers relations) : HasRecords layers := by
  intro x o ho
  obtain ⟨m, name, category, hm, -, -⟩ := h.described ho
  obtain ⟨fs, rfl, -⟩ := Value.entry_ok.1 hm
  exact ⟨fs, rfl⟩

theorem Groupable.ready (h : Groupable layers relations) : Ready layers layers where
  alike := .refl _ h.base h.records
  takes := fun ho => .inl (h.ungrouped ho)

theorem Ready.exists (h : Ready layers l) (hx : x ∈ procedureNames layers) : ∃ o, procedureAt? l x = some o ∧ ∃ fs, o = .object fs := by
  rw [← h.alike.names] at hx
  obtain ⟨o, ho⟩ := (mem_procedureNames h.alike.base').1 hx
  exact ⟨o, ho, h.alike.hasRecords ho⟩

theorem Ready.put (h : Ready layers l) {gs : List Value} (ho : procedureAt? l x = some o) (hs : o.SameBut ["groups"] o')
    (hgs : o'.entry "groups" = .ok (.list gs)) :
    Ready layers ((addressOf x).put o' l) ∧ ∀ y, groupsAt ((addressOf x).put o' l) y = if y = x then gs else groupsAt l y := by
  have hself := procedureAt?_put_self o' ho
  refine ⟨⟨h.alike.trans (.put h.alike.base' h.alike.hasRecords ho hs), fun {y u} hu => ?_⟩, fun y => ?_⟩
  · by_cases hy : y = x
    · subst hy
      obtain rfl := Option.mem_unique hself hu
      exact .inr ⟨gs, hgs⟩
    · rw [procedureAt?_put_ne hy] at hu
      exact h.takes hu
  · split_ifs with hy
    · subst hy
      rw [groupsAt, hself]
      exact groupsOf_of_entry hgs
    · rw [groupsAt, procedureAt?_put_ne hy]
      rfl

theorem Ready.joins (h : Ready layers l) (hg : Groupable layers relations) (ho : procedureAt? l x = some o) (kind : GroupKind) :
    joins o (.text kind.mark) = .ok (kind.admits (categoryAt layers x)) := by
  obtain ⟨o', ho', hs⟩ := h.alike.procedure' ho
  obtain ⟨m, name, category, hm, -, hc⟩ := hg.described ho'
  have hcat : categoryAt layers x = category := by
    rw [categoryAt, ho', Option.map_some, Value.get_of_entry hm, Value.get_of_entry hc]
  rw [hcat]
  exact joins_run ((hs.entry (by decide)).trans hm) hc kind

end Ready

/-! ## Steps that take procedures into a group -/

/-- A group has been put at the end of the groups of these procedures, as often as they are listed. -/
structure Adds (layers g : Value) (vs : List ProcedureName) (s s' : GroupState) : Prop where
  ready : Ready layers s'.layers
  nextId : s'.nextId = s.nextId
  groups : ∀ y, groupsAt s'.layers y = groupsAt s.layers y ++ List.replicate (vs.count y) g

def Adding (layers g : Value) (vs : List ProcedureName) (step : GroupStep Unit) : Prop :=
  ∀ s, Ready layers s.layers → ∃ s', step s = .ok () s' ∧ Adds layers g vs s s'

section Adding

variable {layers : Value} {relations : List Relation} {g : Value} {vs us : List ProcedureName}

theorem Adds.refl (h : Ready layers s.layers) : Adds layers g [] s s where
  ready := h
  nextId := rfl
  groups := fun _ => (List.append_nil _).symm

theorem Adds.trans {t s' : GroupState} (h1 : Adds layers g vs s t) (h2 : Adds layers g us t s') : Adds layers g (vs ++ us) s s' where
  ready := h2.ready
  nextId := h2.nextId.trans h1.nextId
  groups := fun y => by
    rw [h2.groups, h1.groups, List.append_assoc, List.replicate_append_replicate, List.count_append]

theorem adding_pure : Adding layers g [] (pure ()) := fun s h => ⟨s, rfl, .refl h⟩

theorem Adding.bind {step next : GroupStep Unit} (h1 : Adding layers g vs step)
    (h2 : Adding layers g us next) : Adding layers g (vs ++ us) (step >>= fun _ => next) := by
  intro s hs
  obtain ⟨t, ht, ha⟩ := h1 s hs
  obtain ⟨s', hs', hb⟩ := h2 t ha.ready
  exact ⟨s', run_bind_ok.2 ⟨(), t, ht, hs'⟩, ha.trans hb⟩

theorem adding_forM {α β : Type} {f : β → GroupStep Unit} {visit : α → List ProcedureName} {as : List α}
    {bs : List β} (h : List.Forall₂ (fun a b => Adding layers g (visit a) (f b)) as bs) :
    Adding layers g (as.flatMap visit) (bs.forM f) := by
  induction h with
  | nil => exact adding_pure
  | cons hab _ ih => exact hab.bind ih

theorem change_run {f : Value → Outcome Value} (ho : procedureAt? s.layers x = some o) (hf : f o = .ok o') :
    GroupStep.change (addressOf x) f s = .ok () { s with layers := (addressOf x).put o' s.layers } := by
  simp only [GroupStep.change, run_parts, run_modify_ok]
  exact ⟨o, address_object_ok.2 ho, o', hf, rfl⟩

theorem adding_addGroup (hx : x ∈ procedureNames layers) (g : Group) :
    Adding layers g.toValue [x] (GroupStep.change (addressOf x) (addGroup g)) := by
  intro s hs
  obtain ⟨o, ho, hrecord⟩ := hs.exists hx
  obtain ⟨o', hadd, hgroups⟩ := addGroup_run hrecord (hs.takes ho) g
  obtain ⟨hready, hput⟩ := hs.put ho (addGroup_sameBut hadd) hgroups
  refine ⟨_, change_run ho hadd, hready, rfl, fun y => ?_⟩
  rw [hput]
  by_cases hy : y = x
  · subst hy
    rw [if_pos rfl, groupsAt, ho, List.count_singleton_self]
    rfl
  · rw [if_neg hy, List.count_singleton, if_neg (by simpa using Ne.symm hy), List.replicate_zero, List.append_nil]

theorem adding_withGroups (hx : x ∈ procedureNames layers) (g : Value) :
    Adding layers g [] (GroupStep.change (addressOf x) withGroups) := by
  intro s hs
  obtain ⟨o, ho, hrecord⟩ := hs.exists hx
  obtain ⟨o', hwith, hgroups⟩ := withGroups_run hrecord (hs.takes ho)
  obtain ⟨hready, hput⟩ := hs.put ho (withGroups_sameBut hwith) hgroups
  refine ⟨_, change_run ho hwith, hready, rfl, fun y => ?_⟩
  rw [hput, List.count_nil, List.replicate_zero, List.append_nil]
  split_ifs with hy
  · subst hy
    rw [groupsAt, ho]
    rfl
  · rfl

theorem adding_takeIn (hg : Groupable layers relations) (hx : x ∈ procedureNames layers) {g : Group} {kind : GroupKind}
    (hkind : g.kind = .text kind.mark) :
    Adding layers g.toValue ([x].filter fun y => kind.admits (categoryAt layers y)) (takeIn g (addressOf x)) := by
  intro s hs
  obtain ⟨o, ho, -⟩ := hs.exists hx
  have hjoins := hs.joins hg ho kind
  obtain ⟨s', hs', hadds⟩ : ∃ s', (if kind.admits (categoryAt layers x) = true then
        GroupStep.change (addressOf x) (addGroup g) else pure ()) s = .ok () s' ∧
      Adds layers g.toValue ([x].filter fun y => kind.admits (categoryAt layers y)) s s' := by
    simp only [List.filter_cons, List.filter_nil]
    split_ifs
    · exact adding_addGroup hx g s hs
    · exact adding_pure s hs
  refine ⟨s', ?_, hadds⟩
  simp only [takeIn, run_parts]
  refine ⟨o, address_object_ok.2 ho, _, ?_, hs'⟩
  rw [hkind]
  exact hjoins

/-! ## Links that are there -/

theorem Groupable.ends (hg : Groupable layers relations) (hr : r ∈ relations) (d : Direction) :
    ∃ x y, x ∈ procedureNames layers ∧ y ∈ procedureNames layers ∧ r.nearPath d = procedurePath x ∧ r.farPath d = procedurePath y := by
  obtain ⟨x, y, hj⟩ := buildRelations_grounded hg.base hg.built hr
  obtain ⟨o, ho, -⟩ := hj.writer
  obtain ⟨o', ho', -⟩ := hj.reader
  have hx := (mem_procedureNames hg.base).2 ⟨o, ho⟩
  have hy := (mem_procedureNames hg.base).2 ⟨o', ho'⟩
  cases d with
  | incoming => exact ⟨y, x, hy, hx, hj.toPath, hj.fromPath⟩
  | outgoing => exact ⟨x, y, hx, hy, hj.fromPath, hj.toPath⟩

theorem Groupable.edge_mem (hg : Groupable layers relations) (d : Direction)
    {e : ProcedureName × ProcedureName} (he : e ∈ edgesAlong d relations) : e.2 ∈ procedureNames layers := by
  obtain ⟨r, hr, rfl⟩ := List.mem_map.1 he
  obtain ⟨-, y, -, hy, -, hfar⟩ := hg.ends hr d
  rw [hfar, nameOfPath_procedurePath (hg.slashFree y hy)]
  exact hy

theorem Groupable.far (hg : Groupable layers relations) (hr : r ∈ relations) (d : Direction) :
    ∃ name i db, (r.farMetadata d).entry "procedure_name" = .ok name ∧
      (r.farTable d).entry "interface_name" = .ok i ∧ (r.farTable d).entry "dbobject_name" = .ok db := by
  have hend : ∀ {x o t m}, procedureAt? layers x = some o → o.entry "metadata" = .ok m →
      TableOf "input_tables" o t ∨ TableOf "output_tables" o t →
      ∃ name i db, m.entry "procedure_name" = .ok name ∧ t.entry "interface_name" = .ok i ∧ t.entry "dbobject_name" = .ok db := by
    intro x o t m ho hm ht
    obtain ⟨m', name, category, hm', hname, -⟩ := hg.described ho
    obtain rfl := ok_unique hm hm'
    obtain ⟨i, db, hi, hdb⟩ := hg.tables ho ht
    exact ⟨name, i, db, hname, hi, hdb⟩
  obtain ⟨x, y, hj⟩ := buildRelations_grounded hg.base hg.built hr
  obtain ⟨o, ho, hm, ht⟩ := hj.writer
  obtain ⟨o', ho', hm', ht'⟩ := hj.reader
  cases d with
  | incoming => exact hend ho hm (.inr ht)
  | outgoing => exact hend ho' hm' (.inl ht')

theorem attributeAt_run {y : ProcedureName} (hy : SlashFree y) {fs : Fields} (ho : procedureAt? l y = some (.object fs)) (key : String) :
    ∃ v, l.attributeAt (.text (procedurePath y)) (.text key) = .ok v := by
  simp only [Value.attributeAt, bind_ok, atPath_procedurePath]
  have hhas : (Value.text key).isIn (.object fs) = .ok (fs.lookup key).isSome := Value.has_object fs key
  cases hk : fs.lookup key with
  | none => exact ⟨.null, .object fs, ⟨hy, ho⟩, false, by rw [hhas, hk]; rfl, rfl⟩
  | some v =>
    refine ⟨v, .object fs, ⟨hy, ho⟩, true, by rw [hhas, hk]; rfl, ?_⟩
    rw [if_pos rfl, Value.item_object, hk]
    rfl

theorem linkOf_run (hg : Groupable layers relations) (hl : Ready layers l) (hr : r ∈ relations) (d : Direction) :
    ∃ k, linkOf l d false r.toValue = .ok k := by
  obtain ⟨-, y, -, hy, -, hfar⟩ := hg.ends hr d
  obtain ⟨name, i, db, hname, hi, hdb⟩ := hg.far hr d
  obtain ⟨o, ho, fs, rfl⟩ := hl.exists hy
  have hp : r.toValue.entry (d.far ++ "_path") = .ok (.text (procedurePath y)) := hfar ▸ r.entry_farPath d
  obtain ⟨v, hv⟩ := attributeAt_run (hg.slashFree y hy) ho "groups"
  refine ⟨{ path := .text (procedurePath y), groups := v, direction := d, name := name,
            elementName := none, interfaceName := i, dbObjectName := db }, ?_⟩
  simp only [linkOf, hp, r.entry_farMetadata, r.entry_farTable, hv, hname, hi, hdb, bind_ok, pure_ok, Except.ok.injEq,
    exists_eq_left', Bool.false_eq_true, if_false]

theorem linksWhere_run {relations : List Relation} (hrel : HasRelations l relations) {d : Direction} {named : Bool}
    {test : Value → Outcome Bool} {p : Relation → Bool} (htest : ∀ r ∈ relations, test r.toValue = .ok (p r))
    (hlink : ∀ r ∈ relations, ∃ k, linkOf l d named r.toValue = .ok k) : ∃ ks, linksWhere l d named test = .ok ks := by
  have hall : ∃ parts, relations.mapM (fun r => (do
      if ← test r.toValue then return [← linkOf l d named r.toValue] else return [] : Outcome (List Link))) = .ok parts := by
    clear hrel
    induction relations with
    | nil => exact ⟨[], rfl⟩
    | cons r rs ih =>
      obtain ⟨parts, hparts⟩ := ih (fun r' hr' => htest r' (.tail _ hr')) fun r' hr' => hlink r' (.tail _ hr')
      obtain ⟨k, hk⟩ := hlink r (.head _)
      refine ⟨(if p r then [k] else []) :: parts, ?_⟩
      rw [List.mapM_cons, hparts, htest r (.head _), hk]
      cases p r <;> rfl
  obtain ⟨parts, hparts⟩ := hall
  refine ⟨parts.flatten, ?_⟩
  rw [linksWhere, hrel.parts]
  show (do return (← (relations.map Relation.toValue).mapM _).flatten : Outcome (List Link)) = _
  rw [List.mapM_map]
  exact bind_ok.2 ⟨parts, hparts, rfl⟩

abbrev LeadTo (layers : Value) (ys : List ProcedureName) (ks : List Link) : Prop :=
  List.Forall₂ (fun y (k : Link) => k.path = .text (procedurePath y) ∧ y ∈ procedureNames layers) ys ks

theorem links_run (hg : Groupable layers relations) (hl : Ready layers l) (d : Direction) (x : ProcedureName) :
    ∃ ks, links l d (.text x.1) (.text x.2) = .ok ks ∧ LeadTo layers (nexts (edgesAlong d relations) x) ks := by
  have hrel : HasRelations l relations := hl.alike.relations.trans hg.noted
  obtain ⟨ks, hks⟩ : ∃ ks, links l d (.text x.1) (.text x.2) = .ok ks := by
    rw [links, basePath_text]
    refine linksWhere_run (p := fun r => r.nearPath d == procedurePath x) hrel (fun r _ => ?_) fun r hr => linkOf_run hg hl hr d
    rw [Value.has_of_entry (r.entry_nearPath d), Value.has_of_entry (r.entry_nearTable d)]
    exact isAt_toValue d _ r
  have hnear : ∀ r ∈ relations, (nameOfPath (r.nearPath d) == x) = (r.nearPath d == procedurePath x) := by
    intro r hr
    obtain ⟨y, -, hy, -, hpath, -⟩ := hg.ends hr d
    rw [hpath, nameOfPath_procedurePath (hg.slashFree y hy), Bool.eq_iff_iff, beq_iff_eq, beq_iff_eq]
    exact ⟨fun h => h ▸ rfl, procedurePath_injective (hg.slashFree y hy)⟩
  have hnexts : nexts (edgesAlong d relations) x =
      (relations.filter fun r => r.nearPath d == procedurePath x).map fun r => nameOfPath (r.farPath d) := by
    rw [nexts, edgesAlong, List.filter_map, List.map_map]
    congr 1
    exact List.filter_congr hnear
  refine ⟨ks, hks, ?_⟩
  rw [LeadTo, hnexts, List.forall₂_map_left_iff]
  refine (forall₂_mem (links_ok hrel hks)).imp fun r k h => ?_
  obtain ⟨hr, -, hk⟩ := h
  obtain ⟨-, y, -, hy, -, hfar⟩ := hg.ends (List.mem_of_mem_filter hr) d
  rw [(linkOf_ok hk).path, hfar, nameOfPath_procedurePath (hg.slashFree y hy)]
  exact ⟨rfl, hy⟩

/-! ## Following chains -/

variable {kind : GroupKind} {grp : Group}

theorem adding_walkChain (hg : Groupable layers relations) (hkind : grp.kind = .text kind.mark) (d : Direction) (n : Nat)
    (hx : x ∈ procedureNames layers) (hn : ∀ {w z}, Walk (edgesAlong d relations) x w z → w.length < n) :
    Adding layers grp.toValue ((visits (edgesAlong d relations) n x).filter fun y => kind.admits (categoryAt layers y))
      (walkChain d grp n (.text (procedurePath x))) := by
  induction n generalizing x with
  | zero => exact absurd (hn (.nil x)) (Nat.not_lt_zero _)
  | succ n ih =>
    intro s hs
    obtain ⟨t, ht, htake⟩ := adding_takeIn hg hx hkind s hs
    obtain ⟨ks, hks, hpaths⟩ := links_run hg htake.ready d x
    -- the chains from the next procedures are shorter by one
    have hnext : Adding layers grp.toValue ((nexts (edgesAlong d relations) x).flatMap fun y =>
        (visits (edgesAlong d relations) n y).filter fun z => kind.admits (categoryAt layers z))
        (ks.forM fun k => walkChain d grp n k.path) := by
      refine adding_forM ((forall₂_mem hpaths).imp fun y k ⟨hy, _, hpath, hmem⟩ => ?_)
      rw [hpath]
      obtain ⟨i, hi⟩ := mem_nexts.1 hy
      exact ih hmem fun hw => Nat.lt_of_succ_lt_succ (hn (.cons hi hw))
    obtain ⟨s', hs', hrest⟩ := hnext t htake.ready
    refine ⟨s', ?_, ?_⟩
    · simp only [walkChain, run_parts, ofPath_procedurePath]
      exact ⟨_, ⟨hg.slashFree x hx, rfl⟩, _, t, ht, ks, hks, hs'⟩
    · have hall := htake.trans hrest
      rw [visits, ← List.singleton_append, List.filter_append, List.filter_flatMap]
      exact hall

/-! ## The group of a procedure -/

def relationGraph (relations : List Relation) : Edges := relations.map fun r => (r.source, r.target)

theorem edgesAlong_incoming (relations : List Relation) : edgesAlong .incoming relations = (relationGraph relations).map Prod.swap := by
  rw [relationGraph, List.map_map]
  rfl

theorem acyclic_edgesAlong (ha : Acyclic (relationGraph relations)) (d : Direction) : Acyclic (edgesAlong d relations) := by
  cases d with
  | incoming =>
    rw [edgesAlong_incoming]
    exact ha.swap
  | outgoing => exact ha

theorem adding_chains (hg : Groupable layers relations) (hkind : grp.kind = .text kind.mark) (d : Direction)
    (ha : ¬ CycleFrom (edgesAlong d relations) x) {ks : List Link} (hks : LeadTo layers (nexts (edgesAlong d relations) x) ks) :
    Adding layers grp.toValue (((nexts (edgesAlong d relations) x).flatMap
        (visits (edgesAlong d relations) (procedureNames layers).length)).filter fun y => kind.admits (categoryAt layers y))
      (ks.forM fun k => walkChain d grp (procedureNames layers).length k.path) := by
  rw [List.filter_flatMap]
  refine adding_forM ((forall₂_mem hks).imp fun y k ⟨hnext, _, hpath, hy⟩ => ?_)
  rw [hpath]
  obtain ⟨i, hi⟩ := mem_nexts.1 hnext
  exact adding_walkChain hg hkind d _ hy fun hw => hw.length_lt (fun e he => hg.edge_mem d he) (fun h => ha (h.cons hi)) hy

def walkGroupWithin (n : Nat) (g : Group) (algo function : Value) : GroupStep Unit := do
  GroupStep.change { algo, function } (addGroup g)
  let layers := (← get).layers
  let before ← links layers .incoming algo function
  let after ← links layers .outgoing algo function
  before.forM fun k => walkChain .incoming g n k.path
  after.forM fun k => walkChain .outgoing g n k.path

variable (grp) in
theorem walkGroupWithin_run (hg : Groupable layers relations) (hx : x ∈ procedureNames layers) (hs : Ready layers s.layers) :
    ∃ t before after, Adds layers grp.toValue [x] s t ∧ LeadTo layers (nexts (edgesAlong .incoming relations) x) before ∧
      LeadTo layers (nexts (edgesAlong .outgoing relations) x) after ∧
      (∀ n, walkGroupWithin n grp (.text x.1) (.text x.2) s = (do
        before.forM fun k => walkChain .incoming grp n k.path
        after.forM fun k => walkChain .outgoing grp n k.path) t) ∧
      walkGroup grp (.text x.1) (.text x.2) s = walkGroupWithin (procedureNames layers).length grp (.text x.1) (.text x.2) s := by
  obtain ⟨t, ht, hadd⟩ := adding_addGroup hx grp s hs
  obtain ⟨before, hbefore, hin⟩ := links_run hg hadd.ready .incoming x
  obtain ⟨after, hafter, hout⟩ := links_run hg hadd.ready .outgoing x
  have hbound : chainBound t.layers = (procedureNames layers).length := by
    rw [chainBound_eq hadd.ready.alike.base', hadd.ready.alike.names]
  have hrun : ∀ n, walkGroupWithin n grp (.text x.1) (.text x.2) s = (do
      before.forM fun k => walkChain .incoming grp n k.path
      after.forM fun k => walkChain .outgoing grp n k.path) t := by
    intro n
    rw [walkGroupWithin]
    show (GroupStep.change (addressOf x) (addGroup grp) >>= fun _ => _) s = _
    rw [run_bind_of_ok ht]
    show (liftM (links t.layers .incoming (.text x.1) (.text x.2)) >>= fun before => _ : GroupStep Unit) t = _
    rw [hbefore]
    show (liftM (links t.layers .outgoing (.text x.1) (.text x.2)) >>= fun after => _ : GroupStep Unit) t = _
    rw [hafter]
    rfl
  have hcut : walkGroup grp (.text x.1) (.text x.2) s = walkGroupWithin (chainBound t.layers) grp (.text x.1) (.text x.2) s := by
    rw [walkGroup, walkGroupWithin]
    show (GroupStep.change (addressOf x) (addGroup grp) >>= _) s = (GroupStep.change (addressOf x) (addGroup grp) >>= _) s
    rw [run_bind_of_ok ht, run_bind_of_ok ht]
    rfl
  exact ⟨t, before, after, hadd, hin, hout, hrun, hbound ▸ hcut⟩

theorem adding_walkGroup (hg : Groupable layers relations) (hkind : grp.kind = .text kind.mark) (hx : x ∈ procedureNames layers)
    (ha : ∀ d, ¬ CycleFrom (edgesAlong d relations) x) :
    Adding layers grp.toValue ([x] ++ ([Direction.incoming, .outgoing].flatMap fun d => ((nexts (edgesAlong d relations) x).flatMap
        (visits (edgesAlong d relations) (procedureNames layers).length)).filter fun y => kind.admits (categoryAt layers y)))
      (walkGroup grp (.text x.1) (.text x.2)) := by
  intro s hs
  obtain ⟨t, before, after, hadd, hin, hout, hrun, hgroup⟩ := walkGroupWithin_run grp hg hx hs
  have hboth := Adding.bind (adding_chains hg hkind .incoming (ha _) hin) (adding_chains hg hkind .outgoing (ha _) hout)
  obtain ⟨s', hs', hchains⟩ := hboth t hadd.ready
  refine ⟨s', ?_, ?_⟩
  · rw [hgroup, hrun]
    exact hs'
  · rw [List.flatMap_cons, List.flatMap_singleton]
    exact hadd.trans hchains

/-- How often the group of one procedure takes in another: itself once, and another one that it admits once for each walk
between the two. Procedures that neither fit nor predict start no group. -/
noncomputable def entries (layers : Value) (relations : List Relation) (x y : ProcedureName) : Nat := match GroupKind.ofFunction? x.2 with
  | none => 0
  | some kind =>
      if y = x then 1
      else if kind.admits (categoryAt layers y) then
        walkCount (relationGraph relations) y x + walkCount (relationGraph relations) x y
      else 0

theorem entries_of_none (h : GroupKind.ofFunction? x.2 = none) (y : ProcedureName) : entries layers relations x y = 0 := by
  unfold entries
  rw [h]

theorem entries_of_some {kind : GroupKind} (h : GroupKind.ofFunction? x.2 = some kind) (y : ProcedureName) :
    entries layers relations x y = if y = x then 1
      else if kind.admits (categoryAt layers y) then
        walkCount (relationGraph relations) y x + walkCount (relationGraph relations) x y
      else 0 := by
  unfold entries
  rw [h]

theorem count_chains (hg : Groupable layers relations) (ha : Acyclic (relationGraph relations)) (kind : GroupKind) (d : Direction)
    (hx : x ∈ procedureNames layers) (y : ProcedureName) :
    (((nexts (edgesAlong d relations) x).flatMap (visits (edgesAlong d relations) (procedureNames layers).length)).filter
        fun z => kind.admits (categoryAt layers z)).count y =
      if y ≠ x ∧ kind.admits (categoryAt layers y) = true then walkCount (edgesAlong d relations) x y
      else 0 := by
  have hcount := count_nexts_visits (acyclic_edgesAlong ha d) (n := (procedureNames layers).length)
    (fun hw => Nat.lt_succ_of_lt (hw.length_lt (fun e he => hg.edge_mem d he) ((acyclic_edgesAlong ha d).not_cycleFrom x) hx)) y
  by_cases hadmits : kind.admits (categoryAt layers y) = true
  · rw [List.count_filter (by simpa using hadmits), hcount]
    by_cases hy : y = x <;> simp [hy, hadmits]
  · rw [if_neg (fun h => hadmits h.2)]
    exact List.count_eq_zero.2 fun h => hadmits (List.mem_filter.1 h).2

def groupFrom (x : ProcedureName) (n : Nat) : Group :=
  .named ((GroupKind.ofFunction? x.2).getD .unknown).mark (x.1 ++ "_" ++ x.2) (identifier n)

theorem count_group (hg : Groupable layers relations) (ha : Acyclic (relationGraph relations)) (hx : x ∈ procedureNames layers)
    {kind : GroupKind} (hkind : GroupKind.ofFunction? x.2 = some kind) (y : ProcedureName) :
    ([x] ++ ([Direction.incoming, .outgoing].flatMap fun d => ((nexts (edgesAlong d relations) x).flatMap
      (visits (edgesAlong d relations) (procedureNames layers).length)).filter
        fun z => kind.admits (categoryAt layers z))).count y = entries layers relations x y := by
  rw [entries_of_some hkind, List.count_append, List.flatMap_cons, List.flatMap_singleton, List.count_append,
    count_chains hg ha kind _ hx, count_chains hg ha kind _ hx, edgesAlong_incoming, walkCount_swap]
  by_cases hy : y = x
  · subst hy
    simp
  · have hown : [x].count y = 0 := List.count_eq_zero.2 (by simpa using hy)
    rw [hown, Nat.zero_add, if_neg hy]
    by_cases hadmits : kind.admits (categoryAt layers y) = true
    · rw [if_pos ⟨hy, hadmits⟩, if_pos ⟨hy, hadmits⟩, if_pos hadmits]
      rfl
    · rw [if_neg (fun h => hadmits h.2), if_neg (fun h => hadmits h.2), if_neg hadmits]

theorem startGroup_run (hg : Groupable layers relations) (ha : Acyclic (relationGraph relations)) (hx : x ∈ procedureNames layers)
    (hs : Ready layers s.layers) :
    ∃ s', startGroup (.text x.1) (.text x.2) s = .ok () s' ∧ Ready layers s'.layers ∧
      s'.nextId = s.nextId + 1 ∧ ∀ y, groupsAt s'.layers y = groupsAt s.layers y ++
        List.replicate (entries layers relations x y) (groupFrom x s.nextId).toValue := by
  obtain ⟨t, ht, hopened⟩ := adding_withGroups hx (groupFrom x s.nextId).toValue s hs
  have hsame : ∀ y, groupsAt t.layers y = groupsAt s.layers y := by
    intro y
    rw [hopened.groups, List.count_nil, List.replicate_zero, List.append_nil]
  let t' : GroupState := { t with nextId := t.nextId + 1 }
  have hfresh : GroupStep.fresh t = .ok (identifier s.nextId) t' := by
    rw [← hopened.nextId]
    rfl
  have hnext : t'.nextId = s.nextId + 1 := congrArg (· + 1) hopened.nextId
  cases hkind : GroupKind.ofFunction? x.2 with
  | none =>
    refine ⟨t', ?_, hopened.ready, hnext, fun y => ?_⟩
    · simp only [startGroup, run_parts, Value.asText, Except.ok.injEq]
      refine ⟨(), t, ht, _, t', hfresh, _, rfl, _, rfl, ?_⟩
      rw [hkind]
      rfl
    · rw [entries_of_none hkind, List.replicate_zero, List.append_nil]
      exact hsame y
  | some kind =>
    have hfrom : groupFrom x s.nextId = .named kind.mark (x.1 ++ "_" ++ x.2) (identifier s.nextId) := by
      rw [groupFrom, hkind]
      rfl
    have hmark : (groupFrom x s.nextId).kind = .text kind.mark := by
      rw [hfrom]
      rfl
    obtain ⟨s', hs', hadds⟩ := adding_walkGroup hg hmark hx (fun d => (acyclic_edgesAlong ha d).not_cycleFrom x) t' hopened.ready
    refine ⟨s', ?_, hadds.ready, hadds.nextId.trans hnext, fun y => ?_⟩
    · rw [hfrom] at hs'
      simp only [startGroup, run_parts, Value.asText, Except.ok.injEq]
      refine ⟨(), t, ht, _, t', hfresh, _, rfl, _, rfl, ?_⟩
      rw [hkind]
      exact hs'
    · rw [hadds.groups, count_group hg ha hx hkind, ← hsame]

theorem startGroups_run (hg : Groupable layers relations) (ha : Acyclic (relationGraph relations)) {xs : List ProcedureName}
    (hxs : ∀ x ∈ xs, x ∈ procedureNames layers) (hs : Ready layers s.layers) :
    ∃ s', xs.forM (fun x => startGroup (.text x.1) (.text x.2)) s = .ok () s' ∧
      ∀ y, groupsAt s'.layers y = groupsAt s.layers y ++ (xs.zipIdx s.nextId).flatMap fun p =>
        List.replicate (entries layers relations p.1 y) (groupFrom p.1 p.2).toValue := by
  induction xs generalizing s with
  | nil => exact ⟨s, rfl, fun _ => (List.append_nil _).symm⟩
  | cons x xs ih =>
    obtain ⟨t, ht, hready, hnext, hgroups⟩ := startGroup_run hg ha (hxs x (.head _)) hs
    obtain ⟨s', hs', hrest⟩ := ih (fun y hy => hxs y (.tail _ hy)) hready
    refine ⟨s', run_bind_ok.2 ⟨(), t, ht, hs'⟩, fun y => ?_⟩
    rw [hrest, hgroups, hnext, List.zipIdx_cons, List.flatMap_cons, List.append_assoc]

end Adding

/-! ## Counting by identifiers -/

def hasUid (uid : String) (g : Value) : Bool := (g.get "uid").same (.text uid)

theorem hasUid_groupFrom (x : ProcedureName) (m n : Nat) : hasUid (identifier m) (groupFrom x n).toValue = decide (n = m) := by
  have huid : (groupFrom x n).toValue.get "uid" = .text (identifier n) := rfl
  rw [hasUid, huid, Bool.eq_iff_iff, same_text_iff, decide_eq_true_eq]
  constructor
  · intro h
    exact identifier_injective (Value.text.inj h)
  · rintro rfl
    rfl

theorem countP_hasUid (f : ProcedureName → Nat) (xs : List ProcedureName) (n i : Nat) :
    ((xs.zipIdx n).flatMap fun p => List.replicate (f p.1) (groupFrom p.1 p.2).toValue).countP
      (hasUid (identifier (n + i))) = ((xs[i]?).map f).getD 0 := by
  have hlater : ∀ (ys : List ProcedureName) m k, k < m →
      ((ys.zipIdx m).flatMap fun p => List.replicate (f p.1) (groupFrom p.1 p.2).toValue).countP (hasUid (identifier k)) = 0 := by
    intro ys m k hk
    refine List.countP_eq_zero.2 fun g hmem => ?_
    obtain ⟨⟨y, j⟩, hy, hmem⟩ := List.mem_flatMap.1 hmem
    have hj := (List.mem_zipIdx hy).1
    rw [(List.mem_replicate.1 hmem).2, hasUid_groupFrom, decide_eq_true_eq]
    omega
  induction xs generalizing n i with
  | nil => rfl
  | cons x xs ih =>
    rw [List.zipIdx_cons, List.flatMap_cons, List.countP_append, List.countP_replicate, hasUid_groupFrom]
    cases i with
    | zero =>
      rw [Nat.add_zero, hlater xs (n + 1) n (Nat.lt_succ_self n)]
      simp
    | succ i =>
      have hnot : n ≠ n + 1 + i := by omega
      rw [← Nat.add_assoc, Nat.add_right_comm, ih]
      simp [hnot]

/-- The groups of a base layer after grouping by function, if identifiers from this number on were drawn. -/
structure CountedByWalks (layers : Value) (relations : List Relation) (n : Nat) (l : Value) : Prop where
  listed : ∀ y ∈ procedureNames layers, groupsAt l y = ((procedureNames layers).zipIdx n).flatMap fun p =>
    List.replicate (entries layers relations p.1 y) (groupFrom p.1 p.2).toValue
  counted : ∀ i x, (procedureNames layers)[i]? = some x → ∀ y ∈ procedureNames layers,
    (groupsAt l y).countP (hasUid (identifier (n + i))) = entries layers relations x y

/-- Grouping by function comes to an end where relations form no cycle, and counts walks. -/
theorem setGroups_counts {settings : Settings} {layers strategy : Value} {relations : List Relation}
    (hg : Groupable layers relations) (ha : Acyclic (relationGraph relations))
    (hs : settings.entry Setting.groupStrategy = .ok strategy)
    (hf : strategy.same (.int functionalGrouping) = true) (n : Nat) :
    ∃ s', setGroups settings { layers, nextId := n } = .ok () s' ∧ CountedByWalks layers relations n s'.layers := by
  obtain ⟨rows, hrows⟩ := hg.base
  obtain ⟨s', hs', hgroups⟩ := startGroups_run hg ha (fun x hx => hx) (s := { layers, nextId := n }) hg.ready
  have hnone : ∀ y ∈ procedureNames layers, groupsAt layers y = [] := by
    intro y hy
    obtain ⟨o, ho⟩ := (mem_procedureNames hg.base).1 hy
    obtain ⟨fs, rfl⟩ := hg.records ho
    rw [groupsAt, ho]
    exact toList_of_not_truthy (Except.ok.inj ((isGrouped_object fs).symm.trans (hg.ungrouped ho)))
  have hlisted : ∀ y ∈ procedureNames layers, groupsAt s'.layers y = ((procedureNames layers).zipIdx n).flatMap fun p =>
        List.replicate (entries layers relations p.1 y) (groupFrom p.1 p.2).toValue := by
    intro y hy
    rw [hgroups, hnone y hy, List.nil_append]
  refine ⟨s', ?_, hlisted, fun i x hx y hy => ?_⟩
  · simp only [setGroups, run_parts]
    refine ⟨strategy, hs, .object rows, hrows.entry, ?_⟩
    rw [if_pos hf, forEachFunction_eq hrows]
    exact hs'
  · rw [hlisted y hy, countP_hasUid (fun x => entries layers relations x y), hx]
    rfl

/-! ## A sample -/

def preparedBase : Fields :=
  [("Scaler", .object [("Transform", sampleProcedure "transform" [sampleTable "data" "FROM S.D"] [sampleTable "scaled" "#P"])]),
   ("Forest", .object [("Fit", sampleProcedure "fit" [sampleTable "train" "FROM #P", sampleTable "test" "FROM #P"]
      [sampleTable "model" "#M"])])]

def preparedRelations : List Relation :=
  (buildRelations (.object [(baseKey, .object preparedBase)])).toOption.getD []

def preparedLayers : Value :=
  .object [(baseKey, .object preparedBase), (relationsKey, .list (preparedRelations.map Relation.toValue))]

theorem preparedLayers_rows : HasRows preparedLayers preparedBase := by
  refine ⟨rfl, by decide, fun p hp => ?_⟩
  rcases List.mem_cons.1 hp with rfl | hp
  · exact ⟨_, rfl, by decide⟩
  · obtain rfl := List.mem_singleton.1 hp
    exact ⟨_, rfl, by decide⟩

theorem preparedLayers_built : buildRelations preparedLayers = .ok preparedRelations := by
  have hbase : IsBaseLayer (.object [(baseKey, .object preparedBase)]) := ⟨_, rfl, preparedLayers_rows.nodup, preparedLayers_rows.row⟩
  have hok : (buildRelations (.object [(baseKey, .object preparedBase)])).toOption.isSome = true := by
    decide +kernel
  have hsame : buildRelations preparedLayers = buildRelations (.object [(baseKey, .object preparedBase)]) := buildRelations_congr hbase rfl
  rw [hsame, preparedRelations]
  cases h : buildRelations (.object [(baseKey, .object preparedBase)]) with
  | error e =>
    rw [h] at hok
    cases hok
  | ok relations => rfl

theorem sampleProcedure_table {name : String} {inputs outputs : List Value} {t : Value}
    (h : TableOf "input_tables" (sampleProcedure name inputs outputs) t ∨
      TableOf "output_tables" (sampleProcedure name inputs outputs) t) : t ∈ inputs ++ outputs := by
  rcases h with ⟨ts, hts, ht⟩ | ⟨ts, hts, ht⟩
  · obtain rfl : inputs = ts := Except.ok.inj hts
    exact List.mem_append_left _ ht
  · obtain rfl : outputs = ts := Except.ok.inj hts
    exact List.mem_append_right _ ht

theorem preparedLayers_procedure (ho : procedureAt? preparedLayers x = some o) :
    ∃ name inputs outputs, o = sampleProcedure name inputs outputs ∧ ∀ t ∈ inputs ++ outputs, ∃ n s, t = sampleTable n s := by
  obtain ⟨a, f⟩ := x
  rcases List.mem_cons.1 ((mem_proceduresOf ⟨_, preparedLayers_rows⟩).2 ho) with h | h
  · cases h
    exact ⟨_, _, _, rfl, by simp⟩
  · cases List.mem_singleton.1 h
    exact ⟨_, _, _, rfl, by simp⟩

theorem preparedLayers_groupable : Groupable preparedLayers preparedRelations := by
  have hbase : IsBaseLayer preparedLayers := ⟨_, preparedLayers_rows⟩
  refine ⟨hbase, ?_, fun ho => ?_, fun ho ht => ?_, fun ho => ?_, preparedLayers_built, rfl⟩
  · unfold SlashFree
    decide
  · obtain ⟨name, inputs, outputs, rfl, -⟩ := preparedLayers_procedure ho
    exact ⟨_, _, name, rfl, rfl, rfl⟩
  · obtain ⟨name, inputs, outputs, rfl, htables⟩ := preparedLayers_procedure ho
    obtain ⟨n, s, rfl⟩ := htables _ (sampleProcedure_table ht)
    exact ⟨_, _, rfl, rfl⟩
  · obtain ⟨name, inputs, outputs, rfl, -⟩ := preparedLayers_procedure ho
    rfl

theorem preparedRelations_acyclic : Acyclic (relationGraph preparedRelations) :=
  acyclic_of_rank (fun x => if x.2 = "Fit" then 1 else 0) (by decide)

/-- Two walks lead to the procedure that fits, so its group takes in the other one twice. -/
theorem setGroups_counts_sample : ∃ s', setGroups sampleSession.settings { layers := preparedLayers, nextId := 0 } = .ok () s' ∧
      CountedByWalks preparedLayers preparedRelations 0 s'.layers ∧
      (groupsAt s'.layers ("Scaler", "Transform")).length = 2 := by
  have hstrategy : sampleSession.settings.entry Setting.groupStrategy = .ok (.int functionalGrouping) := rfl
  obtain ⟨s', h, hcounted⟩ := setGroups_counts preparedLayers_groupable preparedRelations_acyclic hstrategy (by decide) 0
  have htwo : succeedsWith (fun _ s => (groupsAt s.layers ("Scaler", "Transform")).length == 2)
      (setGroups sampleSession.settings { layers := preparedLayers, nextId := 0 }) = true := by decide +kernel
  rw [h] at htwo
  exact ⟨s', h, hcounted, beq_iff_eq.1 htwo⟩

end TraceArtifacts
