import TraceArtifacts.Proofs.Calls
import TraceArtifacts.Proofs.Drafts

/-!
# Proofs: connections and relations

Without merging, each procedure of the base layer has an element of its own, and the links of its outputs stand for the relations
that start from it (`BuiltAlone.linkFor`, `BuiltAlone.link`).
-/

namespace TraceArtifacts.Graph

variable {e e' : Element} {graphs : GraphDrafts} {d : GraphDraft} {i j : Nat} {u : OutputTable} {x : ProcedureName} {r : Relation}
  {s s' : Session} {k n : String} {g l layers o o' t v : Value}

/-! ## Names of groups -/

def GroupsNamed (o : Value) : Prop := ∀ v, o.entry "groups" = .ok v → NamedGroups v

theorem namedGroups_list {ms : List Value} : NamedGroups (.list ms) ↔ ∀ m ∈ ms, ∃ n, m.entry "identifier" = .ok (.text n) :=
  ⟨fun h => h ms rfl, fun h _ hms => Except.ok.inj hms ▸ h⟩

theorem entry_setEntry_self {w x : Value} (h : v.setEntry k x = .ok w) : w.entry k = .ok x :=
  Value.entry_eq_ok_iff.2 (Value.at?_setEntry_self h)

theorem withGroups_named (h : withGroups o = .ok o') (ho : GroupsNamed o) : GroupsNamed o' := by
  obtain ⟨b, hb, h⟩ := bind_ok.1 h
  cases b with
  | true =>
    cases h
    exact ho
  | false =>
    intro v hv
    obtain rfl := ok_unique (entry_setEntry_self h) hv
    exact namedGroups_list.2 (by simp)

theorem regroups_named (h : Regroups o o') (ho : GroupsNamed o) : GroupsNamed o' := by
  rcases h with h | ⟨kind, identifier, uid, h⟩
  · exact withGroups_named h ho
  · simp only [addGroup, bind_ok] at h
    obtain ⟨w, hw, gs, hgs, gs', hgs', h⟩ := h
    intro v hv
    obtain rfl := ok_unique (entry_setEntry_self h) hv
    cases gs with
    | list ms =>
      cases hgs'
      refine namedGroups_list.2 fun m hm => ?_
      rcases List.mem_append.1 hm with hm | hm
      · exact namedGroups_list.1 (withGroups_named hw ho _ hgs) m hm
      · obtain rfl := List.mem_singleton.1 hm
        exact ⟨identifier, rfl⟩
    | _ => cases hgs'

theorem regrouped_named (h : Regrouped layers l) (hl : ∀ {x o}, procedureAt? layers x = some o → GroupsNamed o)
    (ho : procedureAt? l x = some o) : GroupsNamed o := by
  induction h generalizing x o with
  | refl => exact hl ho
  | @step l y u u' _ hu hg ih =>
    by_cases hxy : x = y
    · subst hxy
      rw [procedureAt?_put_self u' hu] at ho
      cases ho
      exact regroups_named hg (ih hu)
    · rw [procedureAt?_put_ne hxy] at ho
      exact ih ho

theorem attributeAt_groups (hr : HasRecords l) {y : ProcedureName} (h : l.attributeAt (.text (procedurePath y)) (.text "groups") = .ok v) :
    ∃ o, procedureAt? l y = some o ∧ v = o.get "groups" .null := by
  simp only [Value.attributeAt, bind_ok] at h
  obtain ⟨o, ho, b, hb, h⟩ := h
  obtain ⟨-, ho⟩ := atPath_procedurePath.1 ho
  obtain ⟨fs, rfl⟩ := hr ho
  refine ⟨_, ho, ?_⟩
  rw [isIn_object] at hb
  rw [Value.get_object]
  cases hg : fs.lookup "groups" with
  | none =>
    obtain rfl : false = b := by simpa [hg] using Except.ok.inj hb
    exact (pure_ok.1 h).symm
  | some w =>
    obtain rfl : true = b := by simpa [hg] using Except.ok.inj hb
    rw [if_pos rfl, Value.item_object, hg] at h
    exact (Except.ok.inj h).symm

theorem get_groups_named (ho : GroupsNamed o) : NamedGroups (o.get "groups" .null) := by
  intro ms hms
  cases hv : o.entry "groups" with
  | ok v =>
    rw [Value.get_of_entry hv] at hms
    exact ho v hv ms hms
  | error e =>
    have hnull : o.get "groups" .null = .null := by
      cases o with
      | object fs =>
        rw [Value.entry_object] at hv
        rw [Value.get_object]
        cases hl : fs.lookup "groups" with
        | none => rfl
        | some w => simp [hl, need] at hv
      | _ => rfl
    rw [hnull] at hms
    cases hms

/-! ## Relations and links -/

theorem getElem?_filter {p : α → Bool} {xs : List α} {x : α} :
    (xs.filter p)[j]? = some x ↔ ∃ i, xs[i]? = some x ∧ p x = true ∧ (xs.take i).countP p = j := by
  induction xs generalizing j with
  | nil => simp
  | cons y ys ih =>
    by_cases hy : p y = true
    · rw [List.filter_cons_of_pos hy]
      cases j with
      | zero =>
        constructor
        · intro h
          obtain rfl : y = x := by simpa using h
          exact ⟨0, rfl, hy, rfl⟩
        · rintro ⟨i, hi, hx, hcount⟩
          cases i with
          | zero => simpa using hi
          | succ i => simp [hy] at hcount
      | succ j =>
        rw [List.getElem?_cons_succ, ih]
        constructor
        · rintro ⟨i, hi, hx, hcount⟩
          exact ⟨i + 1, hi, hx, by simp [hy, hcount]⟩
        · rintro ⟨i, hi, hx, hcount⟩
          cases i with
          | zero => simp at hcount
          | succ i => exact ⟨i, hi, hx, by simpa [hy] using hcount⟩
    · rw [List.filter_cons_of_neg hy, ih]
      constructor
      · rintro ⟨i, hi, hx, hcount⟩
        exact ⟨i + 1, hi, hx, by simp [hy, hcount]⟩
      · rintro ⟨i, hi, hx, hcount⟩
        cases i with
        | zero =>
          obtain rfl : y = x := by simpa using hi
          exact absurd hx hy
        | succ i => exact ⟨i, hi, hx, by simpa [hy] using hcount⟩

theorem forall₂_getElem? {R : α → β → Prop} {xs : List α} {ys : List β} (h : List.Forall₂ R xs ys) {x : α} (hx : xs[j]? = some x) :
    ∃ y, ys[j]? = some y ∧ R x y := by
  induction h generalizing j with
  | nil => simp at hx
  | @cons a b as bs hab _ ih =>
    cases j with
    | zero =>
      obtain rfl : a = x := by simpa using hx
      exact ⟨b, rfl, hab⟩
    | succ j => exact ih hx

section Single

variable (h : SingleFrom layers x e) (ho : procedureAt? layers x = some o)
include h ho

theorem single_groups : (NamedGroups (o.get "groups" .null) → NamedGroups e.groups) ∧
    ∀ g, InGroup e.groups g ↔ InGroup (o.get "groups" .null) g := by
  obtain ⟨l, o', c, n, groups, -, ho', -, -, hg, rfl⟩ := h
  obtain rfl : o = o' := Option.mem_unique ho ho'
  exact shownGroupsOf_ok hg

theorem single_listed (n : String) : listed e.groups n = listed (o.get "groups" .null) n := by
  obtain ⟨l, o', c, n', groups, -, ho', -, -, hg, rfl⟩ := h
  obtain rfl : o = o' := Option.mem_unique ho ho'
  exact shownGroupsOf_listed hg n

theorem single_name {m : Value} (hm : o.entry "metadata" = .ok m) (hn : m.entry "procedure_name" = .ok (.text n)) :
    e.name = "cons_" ++ n := by
  obtain ⟨l, o', c, n', groups, -, ho', hc, hn', -, rfl⟩ := h
  obtain rfl : o = o' := Option.mem_unique ho ho'
  have hproc := hc.procedure
  obtain ⟨fs, rfl, hfs⟩ := Value.entry_ok.1 hm
  obtain ⟨ms, rfl, hms⟩ := Value.entry_ok.1 hn
  have hname : procedureName (.object fs) = .ok (.text n) := by
    unfold procedureName
    rw [Value.has_object, hfs, hm]
    show (Value.object ms).entryOr "procedure_name" (.text "") = .ok (.text n)
    rw [Value.entryOr_object, hms]
    rfl
  rw [hname, hn'] at hproc
  obtain rfl : n = n' := Value.text.inj (Except.ok.inj hproc)
  rfl

theorem single_reads (ht : TableOf "input_tables" o t) : ∃ i ∈ e.inputs, t.entry "interface_name" = .ok (.text i.name) := by
  obtain ⟨l, o', c, n, groups, -, ho', hc, -, -, rfl⟩ := h
  obtain rfl : o = o' := Option.mem_unique ho ho'
  obtain ⟨ts, hts, hinputs⟩ := hc.inputs
  obtain ⟨ts', hts', ht⟩ := ht
  obtain rfl : ts = ts' := ok_unique hts hts'
  obtain ⟨i, hi, hti⟩ := forall₂_mem_left hinputs ht
  exact ⟨i, hi, hti.name⟩

theorem single_writes (ht : TableOf "output_tables" o t) : ∃ u, .table u ∈ e.outputs ∧ t.entry "interface_name" = .ok u.name := by
  obtain ⟨l, o', c, n, groups, -, ho', hc, -, -, rfl⟩ := h
  obtain rfl : o = o' := Option.mem_unique ho ho'
  obtain ⟨ts, us, tables, vars, hts, -, htables, -, houtputs⟩ := hc.outputs
  obtain ⟨ts', hts', ht⟩ := ht
  obtain rfl : ts = ts' := ok_unique hts hts'
  obtain ⟨u, hu, htu⟩ := forall₂_mem_left htables ht
  refine ⟨u, ?_, htu.name⟩
  show _ ∈ c.outputs
  rw [houtputs]
  exact List.mem_append_left _ (List.mem_map_of_mem hu)

end Single

theorem single_links (h : SingleFrom layers x e) {relations : List Relation} (hrel : HasRelations layers relations)
    (hu : .table u ∈ e.outputs) : ∃ l, Alike [mergedKey] layers l ∧ List.Forall₂ (fun r k => Link.Follows l .outgoing true r k)
        (relations.filter (Relation.isAtTable .outgoing x u.name)) u.links := by
  obtain ⟨l, o, c, n, groups, hl, -, hc, -, -, rfl⟩ := h
  obtain ⟨ts, us, tables, vars, -, -, htables, -, houtputs⟩ := hc.outputs
  have hmem : .table u ∈ c.outputs := hu
  rw [houtputs, List.mem_append] at hmem
  obtain ⟨t, -, ht⟩ : ∃ t ∈ ts, OutputFrom l x t u := by
    rcases hmem with hmem | hmem
    · obtain ⟨u', hu', he⟩ := List.mem_map.1 hmem
      obtain rfl := OutputItem.table.inj he
      exact forall₂_mem_right htables hu'
    · obtain ⟨v, -, he⟩ := List.mem_map.1 hmem
      cases he
  exact ⟨l, hl, (linksOfTable_ok (hl.relations.trans hrel) ht.links).imp fun r k hk => linkOf_ok hk⟩

/-! ## Relations and connections -/

/-- Elements that are built alone from procedures with these relations, whose groups are named by texts. -/
structure BuiltAlone (layers : Value) (relations : List Relation) (elements : List Element) : Prop where
  fresh : FreshBase layers
  related : buildRelations layers = .ok relations
  noted : HasRelations layers relations
  single : List.Forall₂ (SingleFrom layers) (procedureNames layers) elements
  named : ∀ {x o}, procedureAt? layers x = some o → GroupsNamed o
  plain : ∀ x ∈ procedureNames layers, SlashFree x

structure Joined (relations : List Relation) (i : Nat) (r : Relation) (e e' : Element) : Prop where
  relation : relations[i]? = some r
  producer : procedurePath e.origin = r.fromPath
  consumer : procedurePath e'.origin = r.toPath

/-- The connection for a relation: it starts from the port of the written table whose number is that of the relation among
those of the table, and leads to the port of the table that is read. -/
def connectionOf (relations : List Relation) (i : Nat) (r : Relation) (e e' : Element) :
    Outcome Connection := do
  let name ← r.fromTable.entry "interface_name"
  let number := (relations.take i).countP (Relation.isAtTable .outgoing e.origin name)
  connect (.text e.name) (.text ((← name.asText) ++ toString number)) (.text e'.name) (← r.toTable.entry "interface_name")

section Built

variable {relations : List Relation} {elements : List Element} (h : BuiltAlone layers relations elements)
include h

theorem BuiltAlone.element (ho : procedureAt? layers x = some o) : ∃ e ∈ elements, SingleFrom layers x e :=
  forall₂_mem_left h.single ((mem_procedureNames h.fresh.base).2 ⟨o, ho⟩)

theorem BuiltAlone.origin (he : e ∈ elements) : SingleFrom layers e.origin e ∧ e.origin ∈ procedureNames layers := by
  obtain ⟨x, hx, hs⟩ := forall₂_mem_right h.single he
  rw [hs.origin]
  exact ⟨hs, hx⟩

theorem BuiltAlone.origins : procedureNames layers = elements.map Element.origin := by
  have := List.forall₂_map_right_iff.2 (h.single.imp fun x e he => he.origin.symm)
  rwa [List.forall₂_eq_eq_eq] at this

theorem BuiltAlone.unique (he : e ∈ elements) (he' : e' ∈ elements) (hpath : procedurePath e.origin = procedurePath e'.origin) :
    e = e' := by
  have hnd := procedureNames_nodup h.fresh.base
  rw [h.origins] at hnd
  exact List.inj_on_of_nodup_map hnd he he' (procedurePath_injective (h.plain _ (h.origin he).2) hpath)

theorem BuiltAlone.namedGroups (he : e ∈ elements) : NamedGroups e.groups := by
  obtain ⟨hs, hx⟩ := h.origin he
  obtain ⟨o, ho⟩ := (mem_procedureNames h.fresh.base).1 hx
  exact (single_groups hs ho).1 (get_groups_named (h.named ho))

theorem BuiltAlone.reader (hr : r ∈ relations) (hl : Alike [mergedKey] layers l) {k : Link} (hk : k.Follows l .outgoing true r) :
    ∃ e ∈ elements, procedurePath e.origin = r.toPath ∧ k.elementName = some e.name ∧
      NamedGroups k.groups ∧ (∀ g, InGroup k.groups g ↔ InGroup e.groups g) ∧
      ∀ n, listed k.groups n = listed e.groups n := by
  obtain ⟨x, y, hj⟩ := buildRelations_grounded h.fresh.base h.related hr
  obtain ⟨o, ho, hmeta, -⟩ := hj.reader
  obtain ⟨e, he, hs⟩ := h.element ho
  obtain ⟨n, hn, hname⟩ := hk.elementName rfl
  have hkname : r.toMetadata.entry "procedure_name" = .ok k.name := hk.name
  rw [hn] at hkname
  have hgroups : l.attributeAt (.text r.toPath) (.text "groups") = .ok k.groups := hk.groups
  rw [hj.toPath] at hgroups
  -- the groups are looked up in layers that agree with these ones but for what has been merged
  obtain ⟨o', ho', hkg⟩ := attributeAt_groups hl.hasRecords hgroups
  obtain ⟨u, hu, hsame⟩ := hl.procedure' ho'
  obtain rfl : o = u := Option.mem_unique ho hu
  rw [hsame.get (by decide)] at hkg
  refine ⟨e, he, by rw [hs.origin, hj.toPath], by rw [hname, single_name hs ho hmeta hkname], ?_, fun g => ?_, fun n => ?_⟩
  · rw [hkg]
    exact get_groups_named (h.named ho)
  · rw [hkg, (single_groups hs ho).2]
  · rw [hkg, single_listed hs ho]

theorem BuiltAlone.draftable (he : e ∈ elements) : Draftable e := by
  refine ⟨h.namedGroups he, fun t ht k hk => ?_⟩
  obtain ⟨l, hl, hlinks⟩ := single_links (h.origin he).1 h.noted ht
  obtain ⟨r, hr, hfollows⟩ := forall₂_mem_right hlinks hk
  obtain ⟨e', -, -, -, hnamed, -⟩ := h.reader (List.mem_filter.1 hr).1 hl hfollows
  exact hnamed

theorem BuiltAlone.inPort (hj : Joined relations i r e e') (he' : e' ∈ elements) :
    ∃ p, r.toTable.entry "interface_name" = .ok p ∧ port p ∈ inPortsOf e' := by
  have hr := List.mem_of_getElem? hj.relation
  obtain ⟨hs, hx⟩ := h.origin he'
  obtain ⟨x, y, hjoins⟩ := buildRelations_grounded h.fresh.base h.related hr
  obtain rfl : e'.origin = y := procedurePath_injective (h.plain _ hx) (hj.consumer.trans hjoins.toPath)
  obtain ⟨o, ho, -, ht⟩ := hjoins.reader
  obtain ⟨input, hin, hname⟩ := single_reads hs ho ht
  refine ⟨_, hname, List.mem_flatMap.2 ⟨input, hin, ?_⟩⟩
  have hany : relations.any (Relation.isAtTable .incoming e'.origin (.text input.name)) = true := by
    refine List.any_eq_true.2 ⟨r, hr, ?_⟩
    simp [Relation.isAtTable, Relation.nearPath, Relation.nearTable, hjoins.toPath, Value.get_of_entry hname, same_text_iff]
  rw [(hs.input h.noted hin).1, hany, if_pos rfl]
  exact List.mem_singleton.2 rfl

structure LinkFor (relations : List Relation) (i : Nat) (r : Relation) (e e' : Element) (n : String)
    (k : Link) : Prop where
  joined : Joined relations i r e e'
  name : r.fromTable.entry "interface_name" = .ok (.text n)
  target : k.elementName = some e'.name
  targetPort : r.toTable.entry "interface_name" = .ok k.interfaceName
  groups : ∀ g, InGroup k.groups g ↔ InGroup e'.groups g

def linkNumber (relations : List Relation) (i : Nat) (e : Element) (n : String) : Nat :=
  (relations.take i).countP (Relation.isAtTable .outgoing e.origin (.text n))

omit h in
theorem LinkFor.connectionOf_eq {k : Link} (hk : LinkFor relations i r e e' n k) : connectionOf relations i r e e' =
      connect (.text e.name) (.text (n ++ toString (linkNumber relations i e n))) (.text e'.name) k.interfaceName := by
  unfold connectionOf
  rw [hk.name, hk.targetPort]
  rfl

theorem BuiltAlone.linkFor (he : e ∈ elements) (hu : .table u ∈ e.outputs) (hn : u.name = .text n) {k : Link} (hk : u.links[j]? = some k) :
    ∃ i r, ∃ e' ∈ elements, LinkFor relations i r e e' n k ∧ linkNumber relations i e n = j := by
  obtain ⟨l, hl, hlinks⟩ := single_links (h.origin he).1 h.noted hu
  rw [hn] at hlinks
  obtain ⟨r, hr, hfollows⟩ := forall₂_getElem? hlinks.flip hk
  obtain ⟨i, hi, hat, hnumber⟩ := getElem?_filter.1 hr
  obtain ⟨e', he', hpath, htarget, -, hgroups, -⟩ := h.reader (List.mem_of_getElem? hi) hl hfollows
  simp only [Relation.isAtTable, Bool.and_eq_true, beq_iff_eq, same_text_iff] at hat
  exact ⟨i, r, e', he', ⟨⟨hi, hat.1.symm, hpath⟩, entry_of_get_text hat.2, htarget, hfollows.interfaceName, hgroups⟩, hnumber⟩

theorem BuiltAlone.linkAt (hj : Joined relations i r e e') (he : e ∈ elements) (he' : e' ∈ elements) (hu : .table u ∈ e.outputs)
    (hn : u.name = .text n) (hname : r.fromTable.entry "interface_name" = .ok (.text n)) :
    ∃ k, u.links[linkNumber relations i e n]? = some k ∧ LinkFor relations i r e e' n k ∧ ∀ m, listed k.groups m = listed e'.groups m := by
  have hat : Relation.isAtTable .outgoing e.origin (.text n) r = true := by
    simp [Relation.isAtTable, Relation.nearPath, Relation.nearTable, hj.producer, Value.get_of_entry hname, same_text_iff]
  obtain ⟨l, hl, hlinks⟩ := single_links (h.origin he).1 h.noted hu
  rw [hn] at hlinks
  obtain ⟨k, hk, hfollows⟩ := forall₂_getElem? hlinks (getElem?_filter.2 ⟨i, hj.relation, hat, rfl⟩)
  obtain ⟨e'', he'', hpath, htarget, -, hgroups, hlisted⟩ := h.reader (List.mem_of_getElem? hj.relation) hl hfollows
  obtain rfl := h.unique he'' he' (hpath.trans hj.consumer.symm)
  exact ⟨k, hk, ⟨hj, hname, htarget, hfollows.interfaceName, hgroups⟩, hlisted⟩

theorem BuiltAlone.link (hj : Joined relations i r e e') (he : e ∈ elements) (he' : e' ∈ elements)
    (hnamed : ∀ u, .table u ∈ e.outputs → ∃ n, u.name = .text n) :
    ∃ u n k, .table u ∈ e.outputs ∧ u.name = .text n ∧ u.links[linkNumber relations i e n]? = some k ∧ LinkFor relations i r e e' n k := by
  obtain ⟨hs, hx⟩ := h.origin he
  obtain ⟨x, y, hjoins⟩ := buildRelations_grounded h.fresh.base h.related (List.mem_of_getElem? hj.relation)
  obtain rfl : e.origin = x := procedurePath_injective (h.plain _ hx) (hj.producer.trans hjoins.fromPath)
  obtain ⟨o, ho, -, ht⟩ := hjoins.writer
  obtain ⟨u, hu, hname⟩ := single_writes hs ho ht
  obtain ⟨n, hn⟩ := hnamed u hu
  obtain ⟨k, hk, hfor, -⟩ := h.linkAt hj he he' hu hn (hname.trans (congrArg Except.ok hn))
  exact ⟨u, n, k, hu, hn, hk, hfor⟩

theorem BuiltAlone.connects (he : e ∈ elements) (hnamed : ∀ u, .table u ∈ e.outputs → ∃ n, u.name = .text n) {m : String} :
    (∃ item ∈ e.outputs, OutputConnects (.text e.name) item m v) ↔
      ∃ i r, ∃ e' ∈ elements, ∃ c, Joined relations i r e e' ∧ InGroup e'.groups (.text m) ∧
        connectionOf relations i r e e' = .ok c ∧ v = c.toValue := by
  constructor
  · rintro ⟨_, hu, u, n, k, j, rfl, hn, hk, target, c, htarget, hc, hm, rfl⟩
    obtain ⟨i, r, e', he', hfor, rfl⟩ := h.linkFor he hu hn hk
    obtain rfl := Option.mem_unique hfor.target htarget
    exact ⟨i, r, e', he', c, hfor.joined, (hfor.groups _).1 hm, hfor.connectionOf_eq.trans hc, rfl⟩
  · rintro ⟨i, r, e', he', c, hj, hm, hc, rfl⟩
    obtain ⟨u, n, k, hu, hn, hk, hfor⟩ := h.link hj he he' hnamed
    exact ⟨_, hu, u, n, k, _, rfl, hn, hk, e'.name, c, hfor.target, hfor.connectionOf_eq.symm.trans hc, (hfor.groups _).2 hm, rfl⟩

theorem BuiltAlone.connection (hj : Joined relations i r e e') (he : e ∈ elements) (he' : e' ∈ elements) {o o' : Operator}
    (ho : IsOperatorOf e o) (ho' : IsOperatorOf e' o') :
    ∃ c, connectionOf relations i r e e' = .ok c ∧ c.source = o.process ∧ c.target = o'.process ∧
      port c.sourcePort ∈ e.outputs.flatMap outPortsOf ∧ port c.targetPort ∈ inPortsOf e' := by
  obtain ⟨u, n, k, hu, hn, hk, hfor⟩ := h.link hj he he' ho.named
  obtain ⟨p, hp, hport⟩ := h.inPort hj he'
  obtain rfl := ok_unique hp hfor.targetPort
  refine ⟨⟨.text (n ++ toString (linkNumber relations i e n)), o.process, k.interfaceName, o'.process⟩, ?_,
    rfl, rfl, List.mem_flatMap.2 ⟨_, hu, ?_⟩, hport⟩
  · rw [hfor.connectionOf_eq, connect, ho.process, ho'.process]
    rfl
  · have hlt : linkNumber relations i e n < u.links.length := (List.getElem?_eq_some_iff.1 hk).1
    have hsome : u.links.isEmpty = false := by
      cases hl : u.links with
      | nil => simp [hl] at hlt
      | cons k ks => rfl
    simp only [outPortsOf, hsome, Bool.false_eq_true, if_false, hn]
    exact List.mem_map.2 ⟨_, List.mem_range.2 (Nat.lt_succ_of_lt hlt), rfl⟩

end Built

/-! ## Graphs as records -/

def HasPort (graph : Value) (process kind : String) (name : Value) : Prop :=
  ∃ ports, graph.at? [.key "processes", .key process, .key "metadata", .key kind] = some (.list ports) ∧ port name ∈ ports

theorem lookup_ofPairs_of_unique {ps : List (String × Value)} (h : ∀ w, (k, w) ∈ ps → w = v) (hk : (k, v) ∈ ps) :
    (Fields.ofPairs ps).lookup k = some v := by
  rw [Fields.lookup_ofPairs]
  cases hw : ps.reverse.lookup k with
  | none => exact absurd (List.lookup_eq_none_iff.1 hw _ (List.mem_reverse.2 hk)) (by simp)
  | some w => rw [h w (List.mem_reverse.1 (Fields.mem_of_lookup hw))]

theorem addedEntries_operators {vs : List Value} (h : ∀ v ∈ vs, ∃ o : Operator, v = o.toEntry) :
    ∃ entries, vs.mapM addedEntries = .ok entries ∧ ∀ k w, (k, w) ∈ entries.flatten ↔ .object [(k, w)] ∈ vs := by
  induction vs with
  | nil => exact ⟨[], rfl, by simp⟩
  | cons v vs ih =>
    obtain ⟨entries, hentries, hmem⟩ := ih fun v hv => h v (.tail _ hv)
    obtain ⟨o, rfl⟩ := h _ (.head _)
    refine ⟨[(o.process, o.toValue)] :: entries, ?_, fun k w => ?_⟩
    · rw [List.mapM_cons, hentries]
      rfl
    · rw [List.flatten_cons, List.mem_append, hmem, List.mem_singleton, List.mem_cons]
      simp [Operator.toEntry]

theorem listAt_graphValue {operators connections graph : Value} (h : graphValue operators connections = .ok graph) :
    graph.listAt "connections" = connections.toList := by
  simp only [graphValue, bind_ok, pure_ok] at h
  obtain ⟨_, -, _, -, rfl⟩ := h
  rfl

theorem graphValue_ok {operators connections : List Value} (h : ∀ v ∈ operators, ∃ o : Operator, v = o.toEntry)
    (hprocess : ∀ o o' : Operator, o.toEntry ∈ operators → o'.toEntry ∈ operators → o.process = o'.process → o.toValue = o'.toValue) :
    ∃ graph, graphValue (.list operators) (.list connections) = .ok graph ∧
      graph.listAt "connections" = connections ∧ ∀ o : Operator, o.toEntry ∈ operators →
        graph.at? [.key "processes", .key o.process] = some o.toValue := by
  obtain ⟨entries, hentries, hmem⟩ := addedEntries_operators h
  have hgraph : graphValue (.list operators) (.list connections) = .ok (.object
      [("description", .text ""), ("processes", .object (Fields.ofPairs entries.flatten)),
        ("groups", .list []), ("connections", .list connections), ("inports", .object []),
        ("outports", .object []), ("properties", .object [])]) := by
    have hmembers : (Value.list operators).members = .ok operators := rfl
    rw [graphValue, hmembers]
    exact bind_ok.2 ⟨operators, rfl, bind_ok.2 ⟨entries, hentries, rfl⟩⟩
  refine ⟨_, hgraph, rfl, fun o ho => ?_⟩
  have hfound : (Fields.ofPairs entries.flatten).lookup o.process = some o.toValue := by
    refine lookup_ofPairs_of_unique (fun w hw => ?_) ((hmem _ _).2 ho)
    obtain ⟨o', ho'⟩ := h _ ((hmem _ _).1 hw)
    have hpair : (o.process, w) = (o'.process, o'.toValue) := by simpa [Operator.toEntry] using ho'
    obtain ⟨hp, rfl⟩ := Prod.mk.inj hpair
    rw [hmem, ho'] at hw
    exact hprocess o' o hw ho hp.symm
  show ((Fields.ofPairs entries.flatten).lookup o.process).bind (Value.at? []) = _
  rw [hfound]
  rfl

theorem lookup_entryIfTrue_ne {key : String} (h : k ≠ key) (v : Value) (rest : Fields) :
    (entryIfTrue key v ++ rest).lookup k = rest.lookup k := by
  unfold entryIfTrue
  split
  · exact Fields.lookup_cons_ne h ..
  · rfl

theorem lookup_entryIfTrue_self (h : v.isTruthy = true) (key : String) (rest : Fields) :
    (entryIfTrue key v ++ rest).lookup key = some v := by
  unfold entryIfTrue
  rw [if_pos h]
  exact List.lookup_cons_self

theorem at?_ports (o : Operator) {ports : List Value} {p : Value} (hp : p ∈ ports) : (o.inPorts = .list ports →
      o.toValue.at? [.key "metadata", .key "additionalinports"] = some (.list ports)) ∧
    (o.outPorts = .list ports → o.toValue.at? [.key "metadata", .key "additionaloutports"] = some (.list ports)) := by
  have htrue : (Value.list ports).isTruthy = true := by
    cases ports with
    | nil => simp at hp
    | cons q qs => rfl
  have hmeta : ∀ key, key ≠ "label" → key ≠ "config" →
      o.toValue.at? [.key "metadata", .key key] = (entryIfTrue "extensible" (.bool o.extensible) ++
        (entryIfTrue "additionalinports" o.inPorts ++ (entryIfTrue "additionaloutports" o.outPorts ++ []))).lookup key := by
    intro key hlabel hconfig
    show Option.bind (List.lookup key _) some = _
    rw [Option.bind_fun_some, List.append_assoc, List.append_assoc, List.cons_append, List.cons_append,
      List.nil_append, Fields.lookup_cons_ne hlabel, Fields.lookup_cons_ne hconfig, List.append_nil]
  constructor
  · intro ho
    rw [hmeta _ (by decide) (by decide), lookup_entryIfTrue_ne (by decide), ho, lookup_entryIfTrue_self htrue]
  · intro ho
    rw [hmeta _ (by decide) (by decide), lookup_entryIfTrue_ne (by decide),
      lookup_entryIfTrue_ne (by decide), ho, lookup_entryIfTrue_self htrue]

theorem hasPort {graph : Value} {o : Operator} (ho : graph.at? [.key "processes", .key o.process] = some o.toValue) {kind : String}
    {ports : List Value}
    (hkind : o.toValue.at? [.key "metadata", .key kind] = some (.list ports)) {name : Value} (hname : port name ∈ ports) :
    HasPort graph o.process kind name := by
  refine ⟨ports, ?_, hname⟩
  rw [← hkind, show ([.key "processes", .key o.process, .key "metadata", .key kind] : Place) =
    [.key "processes", .key o.process] ++ [.key "metadata", .key kind] from rfl, Value.at?_append, ho]
  rfl

theorem toEntry_inj {o o' : Operator} (h : o.toEntry = o'.toEntry) : o.process = o'.process ∧ o.toValue = o'.toValue := by
  simpa [Operator.toEntry] using h

/-! ## The graphs of a consumption layer -/

/-- The graph of a group: its connections are those of the relations between elements of the group, and they start from and
lead to ports of operators of the graph. -/
structure GraphMatches (relations : List Relation) (elements : List Element) (g graph : Value) : Prop where
  connections : ∀ v, v ∈ graph.listAt "connections" ↔ ∃ i r, ∃ e ∈ elements, ∃ e' ∈ elements, ∃ c,
    Joined relations i r e e' ∧ InGroup e.groups g ∧ InGroup e'.groups g ∧ connectionOf relations i r e e' = .ok c ∧ v = c.toValue
  ends : ∀ i r, ∀ e ∈ elements, ∀ e' ∈ elements, Joined relations i r e e' → InGroup e.groups g →
    InGroup e'.groups g → ∃ c, connectionOf relations i r e e' = .ok c ∧ HasPort graph c.source "additionaloutports" c.sourcePort ∧
      HasPort graph c.target "additionalinports" c.targetPort

theorem forall₂_exists_zip {R : α → β → Prop} {xs : List α} {ys : List β} (h : List.Forall₂ R xs ys)
    {x : α} (hx : x ∈ xs) : ∃ y, (x, y) ∈ xs.zip ys ∧ R x y := by
  obtain ⟨j, hj⟩ := List.getElem?_of_mem hx
  obtain ⟨y, hy, hR⟩ := forall₂_getElem? h hj
  exact ⟨y, List.mem_of_getElem? (List.getElem?_zip_eq_some.2 ⟨hj, hy⟩), hR⟩

section Drafted

variable {elements : List Element} {os : List Operator} (h : Drafted elements os graphs)
include h

theorem Drafted.pair {p : Element × Operator} (hp : p ∈ elements.zip os) : p.1 ∈ elements ∧ IsOperatorOf p.1 p.2 :=
  ⟨(List.of_mem_zip hp).1, (List.forall₂_iff_zip.1 h.built).2 hp⟩

theorem Drafted.unique (hnd : (elements.map fun e => processName (.text e.name)).Nodup)
    {p q : Element × Operator} (hp : p ∈ elements.zip os) (hq : q ∈ elements.zip os)
    (hpq : p.2.process = q.2.process) : p = q := by
  have hzip : ((elements.zip os).map fun p => processName (.text p.1.name)).Nodup := by
    rw [← List.map_fst_zip (Nat.le_of_eq h.built.length_eq), List.map_map] at hnd
    exact hnd
  refine List.inj_on_of_nodup_map hzip hp hq ?_
  rw [(h.pair hp).2.process, (h.pair hq).2.process, hpq]

theorem Drafted.mem_operators (hd : (g, d) ∈ graphs) : v ∈ d.operators ↔ ∃ p ∈ elements.zip os, InGroup p.1.groups g ∧ v = p.2.toEntry := by
  obtain ⟨n, rfl⟩ : ∃ n, g = .text n := h.keyed.text _ hd
  rw [← graphAt_of_mem h.keyed.nodup hd, h.operators, List.mem_flatMap]
  simp only [List.mem_replicate, ← Nat.pos_iff_ne_zero, listed_pos_iff]

theorem Drafted.mem_connections (hd : (.text n, d) ∈ graphs) : v ∈ d.connections ↔ ∃ e ∈ elements, InGroup e.groups (.text n) ∧
      ∃ item ∈ e.outputs, OutputConnects (.text e.name) item n v := by
  rw [← graphAt_of_mem h.keyed.nodup hd, h.connections, List.mem_flatMap]
  refine exists_congr fun e => and_congr_right fun he => ?_
  obtain ⟨o, -, ho⟩ := forall₂_mem_left h.built he
  rw [List.mem_flatten, ← listed_pos_iff, Nat.pos_iff_ne_zero]
  simp only [List.mem_replicate, and_assoc, exists_and_left, exists_eq_left, elementConnections, List.mem_flatMap]
  exact and_congr_right fun _ => exists_congr fun item => and_congr_right fun hitem =>
    mem_outputConnections fun t ht => ho.named t (ht ▸ hitem)

theorem Drafted.graph (hnd : (elements.map fun e => processName (.text e.name)).Nodup) (hd : (g, d) ∈ graphs) :
    ∃ graph, graphValue (.list d.operators) (.list d.connections) = .ok graph ∧ graph.listAt "connections" = d.connections ∧
      ∀ p ∈ elements.zip os, InGroup p.1.groups g → graph.at? [.key "processes", .key p.2.process] = some p.2.toValue := by
  have hentry : ∀ v ∈ d.operators, ∃ o : Operator, v = o.toEntry := by
    intro v hv
    obtain ⟨p, -, -, rfl⟩ := (h.mem_operators hd).1 hv
    exact ⟨p.2, rfl⟩
  have hprocess : ∀ o o' : Operator, o.toEntry ∈ d.operators → o'.toEntry ∈ d.operators →
      o.process = o'.process → o.toValue = o'.toValue := by
    intro o o' ho ho' hoo
    obtain ⟨p, hp, -, hop⟩ := (h.mem_operators hd).1 ho
    obtain ⟨q, hq, -, hoq⟩ := (h.mem_operators hd).1 ho'
    obtain ⟨hop, hopv⟩ := toEntry_inj hop
    obtain ⟨hoq, hoqv⟩ := toEntry_inj hoq
    obtain rfl := h.unique hnd hp hq (by rw [← hop, ← hoq, hoo])
    rw [hopv, hoqv]
  obtain ⟨graph, hgraph, hconns, hfound⟩ := graphValue_ok hentry hprocess
  exact ⟨graph, hgraph, hconns, fun p hp hg => hfound p.2 ((h.mem_operators hd).2 ⟨p, hp, hg, rfl⟩)⟩

end Drafted

theorem BuiltAlone.graphMatches {relations : List Relation} {elements : List Element} (h : BuiltAlone layers relations elements)
    {os : List Operator} (hd : Drafted elements os graphs) (hnd : (elements.map fun e => processName (.text e.name)).Nodup)
    (hg : (g, d) ∈ graphs) :
    ∃ graph, graphValue (.list d.operators) (.list d.connections) = .ok graph ∧ GraphMatches relations elements g graph := by
  obtain ⟨graph, hgraph, hconns, hfound⟩ := hd.graph hnd hg
  obtain ⟨n, rfl⟩ : ∃ n, g = .text n := hd.keyed.text _ hg
  refine ⟨graph, hgraph, fun v => ?_, fun i r e he e' he' hj hin hin' => ?_⟩
  · rw [hconns, hd.mem_connections hg]
    constructor
    · rintro ⟨e, he, hin, hitem⟩
      obtain ⟨o, -, ho⟩ := forall₂_mem_left hd.built he
      obtain ⟨i, r, e', he', c, hj, hin', hc, rfl⟩ := (h.connects he ho.named).1 hitem
      exact ⟨i, r, e, he, e', he', c, hj, hin, hin', hc, rfl⟩
    · rintro ⟨i, r, e, he, e', he', c, hj, hin, hin', hc, rfl⟩
      obtain ⟨o, -, ho⟩ := forall₂_mem_left hd.built he
      exact ⟨e, he, hin, (h.connects he ho.named).2 ⟨i, r, e', he', c, hj, hin', hc, rfl⟩⟩
  · obtain ⟨o, hzip, ho⟩ := forall₂_exists_zip hd.built he
    obtain ⟨o', hzip', ho'⟩ := forall₂_exists_zip hd.built he'
    obtain ⟨c, hc, hsource, htarget, hout, hinport⟩ := h.connection hj he he' ho ho'
    refine ⟨c, hc, ?_, ?_⟩
    · rw [hsource]
      exact hasPort (hfound _ hzip hin) ((at?_ports o hout).2 ho.outPorts) hout
    · rw [htarget]
      exact hasPort (hfound _ hzip' hin') ((at?_ports o' hinport).1 ho'.inPorts) hinport

theorem drafting_ok {step : DraftStep Unit} (h : drafting step s = .ok graphs s') :
    ∃ l d, s.settings.entry Setting.layers = .ok l ∧ step { layers := l } = .ok () d ∧ d.graphs = graphs := by
  obtain ⟨l, d, hl, hd, hgraphs, -⟩ := drafting_run h
  exact ⟨l, d, hl, hd, hgraphs⟩

theorem Processed.builtAlone {P : BaseParts → Prop} {grouped final : Value} {relations : List Relation} {elements : List Element}
    (hp : Processed P s s' grouped final relations elements) (hm : MergesNothing s.settings)
    (hslash : ∀ x ∈ procedureNames final, SlashFree x) : BuiltAlone grouped relations elements := by
  obtain ⟨settings, b, hst, hb, -⟩ := hp.run
  have hm' : MergesNothing settings := by
    intro m hm'
    rw [hst _ (by decide)] at hm'
    exact hm m hm'
  obtain ⟨hsingle, -⟩ := buildConsumption_single hb hp.fresh.base hp.fresh.records hm' hp.fresh.unmerged
  obtain ⟨base, _, hmade, hstored⟩ := hp.made
  refine ⟨hp.fresh, hp.related, hp.noted, hsingle, fun {x o} ho => ?_, fun x hx => hslash x (hp.names ▸ hx)⟩
  obtain ⟨l, g, hlb, hre, hgb, -⟩ := hmade.regrouped
  rw [procedureAt?_congr hgb] at ho
  refine regrouped_named hre (fun {y w} hw => ?_) ho
  rw [procedureAt?_congr hlb] at hw
  obtain ⟨parts, name, category, -, rfl⟩ := hstored hw
  intro v hv
  cases hv

theorem processTrace_builtAlone {raiseOnError logStatements own : Bool} {u : Unit}
    (h : processTrace raiseOnError logStatements own s = .ok u s') (hl : s.settings.entry Setting.layers = .ok (.object []))
    (hm : MergesNothing s.settings) (hs : s'.settings.entry Setting.layers = .ok layers)
    (hslash : ∀ x ∈ procedureNames layers, SlashFree x) :
    layers = .object [] ∨ ∃ grouped relations elements, BuiltAlone grouped relations elements ∧
      buildRelations layers = .ok relations ∧ procedureNames layers = procedureNames grouped ∧
      layers.entry consumptionKey = .ok (.list (elements.map Element.toValue)) := by
  rcases processTrace_processed storesAs_trivial h hl trivial with ⟨-, rfl⟩ | ⟨grouped, final, relations, elements, hp⟩
  · exact .inl (ok_unique hs hl)
  obtain rfl := ok_unique hp.layers hs
  exact .inr ⟨grouped, relations, elements, Processed.builtAlone hp hm hslash, hp.relations_final, hp.names, hp.listed⟩

/-- Graphs are drafted from the elements that were built from a trace. -/
theorem draftAndWrite_drafted {raiseOnError logStatements own : Bool} {u : Unit}
    (h : processTrace raiseOnError logStatements own s = .ok u s') (hl : s.settings.entry Setting.layers = .ok (.object []))
    (hm : MergesNothing s.settings) (hs : s'.settings.entry Setting.layers = .ok layers)
    (hslash : ∀ x ∈ procedureNames layers, SlashFree x) {t t' : Session} {l path : Value} {w : Unit}
    (ht : t.settings.entry Setting.layers = .ok l) (hlt : l.entry consumptionKey = layers.entry consumptionKey)
    (hrun : draftAndWrite path { serveResults := false, trackModels := false } t = .ok w t') :
    ∃ grouped relations elements os graphs t1, BuiltAlone grouped relations elements ∧ buildRelations layers = .ok relations ∧
      elements.map Element.origin = procedureNames layers ∧ layers.entry consumptionKey = .ok (.list (elements.map Element.toValue)) ∧
      drafting (draftAll t.settings { serveResults := false, trackModels := false }) t = .ok graphs t1 ∧
      writeGraphs path graphs t1 = .ok () t' ∧ Drafted elements os graphs := by
  simp only [draftAndWrite, run_parts] at hrun
  obtain ⟨graphs, t1, hgraphs, hwrite⟩ := hrun
  obtain ⟨l', d, hl', hd, rfl⟩ := drafting_ok hgraphs
  obtain rfl := ok_unique ht hl'
  rcases processTrace_builtAlone h hl hm hs hslash with rfl | ⟨grouped, relations, elements, hb, hrel, hnames, hcons⟩
  · -- nothing was traced, so there is no layer to draft from
    obtain ⟨_, _, hget, hd⟩ := run_bind_ok.1 hd
    cases hget
    obtain ⟨_, hlayer, -⟩ := run_lift_bind_ok.1 hd
    rw [hlt] at hlayer
    cases hlayer
  obtain ⟨os, hdrafted⟩ := draftAll_ok (fun e he => hb.draftable he) (hlt.trans hcons) hd
  exact ⟨grouped, relations, elements, os, d.graphs, t1, hb, hrel, hb.origins.symm.trans hnames.symm, hcons, hgraphs, hwrite, hdrafted⟩

def processNames (layers : Value) : List (Outcome String) :=
  (layers.listAt consumptionKey).map fun e => processName (e.get "name")

theorem processNames_eq {elements : List Element} (h : layers.entry consumptionKey = .ok (.list (elements.map Element.toValue))) :
    processNames layers = elements.map fun e => processName (.text e.name) := by
  have hlist : layers.listAt consumptionKey = elements.map Element.toValue := by
    rw [Value.listAt, Value.get_of_entry h]
    rfl
  rw [processNames, hlist, List.map_map]
  refine List.map_congr_left fun e _ => ?_
  obtain ⟨name, origin, single, inputs, body, outputs, groups⟩ := e
  cases single <;> rfl

/-- Without merging, the graphs of a session that was processed from scratch match the relations between its elements: there
is a graph for each group, its connections are the relations between elements of the group, and both ends of each
connection are ports of operators of the graph. -/
theorem draftAndWrite_graphs_match {raiseOnError logStatements own : Bool} {s s' : Session} {u : Unit}
    (h : processTrace raiseOnError logStatements own s = .ok u s')
    (hl : s.settings.entry Setting.layers = .ok (.object [])) (hm : MergesNothing s.settings)
    {layers : Value} (hs : s'.settings.entry Setting.layers = .ok layers)
    (hslash : ∀ x ∈ procedureNames layers, SlashFree x) (hnd : (processNames layers).Nodup)
    {t t' : Session} {l : Value} (ht : t.settings.entry Setting.layers = .ok l)
    (hlt : l.entry consumptionKey = layers.entry consumptionKey) {path : Value} {w : Unit}
    (hrun : draftAndWrite path { serveResults := false, trackModels := false } t = .ok w t') :
    ∃ relations elements graphs t1, buildRelations layers = .ok relations ∧
      layers.entry consumptionKey = .ok (.list (elements.map Element.toValue)) ∧
      elements.map Element.origin = procedureNames layers ∧
      drafting (draftAll t.settings { serveResults := false, trackModels := false }) t = .ok graphs t1 ∧
      writeGraphs path graphs t1 = .ok () t' ∧ (graphs.map Prod.fst).Nodup ∧
      (∀ g, g ∈ graphs.map Prod.fst ↔ ∃ e ∈ elements, InGroup e.groups g) ∧
      ∀ p ∈ graphs, ∃ graph, graphValue (.list p.2.operators) (.list p.2.connections) = .ok graph ∧
        GraphMatches relations elements p.1 graph := by
  obtain ⟨grouped, relations, elements, os, graphs, t1, hb, hrel, horigins, hcons, hgraphs, hwrite, hd⟩ :=
    draftAndWrite_drafted h hl hm hs hslash ht hlt hrun
  rw [processNames_eq hcons] at hnd
  exact ⟨relations, elements, graphs, t1, hrel, hcons, horigins, hgraphs, hwrite, hd.keyed.nodup, hd.mem_graphs,
    fun p hp => hb.graphMatches hd hnd hp⟩

def linkedSession : Session where
  settings := Settings.builtin ++ [(Setting.mergeStrategy, .int 1), (Setting.groupStrategy, .int 1),
    (Setting.layers, .object []), (Setting.entityContext, .text ""), (Setting.schema, .text "S"),
    (Setting.sourceMapping, .object [("S.D", .text "S.E")])]
  trace := .object [("RandomForestClassifier", .object [("F", linkedCall [] [tracedTable "#M" "SELECT #M"]),
     ("P", linkedCall [tracedTable "#E" "SELECT #M"] [])])]
where
  linkedCall (inputs outputs : List Value) : Value :=
    .object [("sql", .list [.text "DO"]), ("function", .list []), ("input_tables", .list inputs),
      ("output_tables", .list outputs), ("output_vars", .list [])]

/-- Whether the procedures of a session are those of the sample, with process names of their own and one relation. -/
def isLinked (s : Session) : Bool :=
  match s.settings.entry Setting.layers with
  | .ok layers =>
      procedureNames layers == [("RandomForestClassifier", "F"), ("RandomForestClassifier", "P")] &&
        decide ((processNames layers).map Except.toOption).Nodup &&
        (buildRelations layers).toOption.map List.length == some 1
  | .error _ => false

theorem isLinked_ok (h : isLinked s = true) : ∃ layers,
    s.settings.entry Setting.layers = .ok layers ∧ (∀ x ∈ procedureNames layers, SlashFree x) ∧
      (processNames layers).Nodup ∧ (buildRelations layers).toOption.map List.length = some 1 := by
  unfold isLinked at h
  cases hl : s.settings.entry Setting.layers with
  | error e => simp [hl] at h
  | ok layers =>
    simp only [hl, Bool.and_eq_true, beq_iff_eq, decide_eq_true_eq] at h
    obtain ⟨⟨hnames, hnd⟩, hone⟩ := h
    refine ⟨layers, rfl, fun x hx => ?_, hnd.of_map, hone⟩
    rw [hnames] at hx
    rcases List.mem_cons.1 hx with rfl | hx
    · exact ⟨by decide, by decide⟩
    · obtain rfl := List.mem_singleton.1 hx
      exact ⟨by decide, by decide⟩

/-- The graph of the sample has a connection for its relation. -/
theorem draftAndWrite_graphs_match_sample : ∃ s' layers t' relations elements g graph,
    processTrace true false true linkedSession = .ok () s' ∧ s'.settings.entry Setting.layers = .ok layers ∧
      draftAndWrite (.text ".") { serveResults := false, trackModels := false } s' = .ok () t' ∧
      buildRelations layers = .ok relations ∧ relations.length = 1 ∧
      GraphMatches relations elements g graph ∧ (graph.listAt "connections").length = 1 := by
  have hsample : succeedsWith (fun _ s' => isLinked s' && succeedsWith (fun graphs t =>
        graphs.map (fun p => p.2.connections.length) == [1] && succeedsWith (fun _ _ => true) (writeGraphs (.text ".") graphs t))
        (drafting (draftAll s'.settings { serveResults := false, trackModels := false }) s'))
      (processTrace true false true linkedSession) = true := by decide +kernel
  obtain ⟨_, s', h, htest⟩ := exists_of_succeedsWith hsample
  obtain ⟨hlinked, htest⟩ := Bool.and_eq_true_iff.1 htest
  obtain ⟨layers, hl, hslash, hnd, hone⟩ := isLinked_ok hlinked
  obtain ⟨graphs, t, hdraft, htest⟩ := exists_of_succeedsWith htest
  obtain ⟨hconns, htest⟩ := Bool.and_eq_true_iff.1 htest
  obtain ⟨_, t', hwrite, -⟩ := exists_of_succeedsWith htest
  have hrun : draftAndWrite (.text ".") { serveResults := false, trackModels := false } s' = .ok () t' :=
    run_bind_ok.2 ⟨s', s', rfl, run_bind_ok.2 ⟨graphs, t, hdraft, hwrite⟩⟩
  have hm : MergesNothing linkedSession.settings := mergesNothing_of_entry rfl (by decide)
  obtain ⟨relations, elements, graphs', t1, hrel, -, -, hdraft', -, -, -, hall⟩ :=
    draftAndWrite_graphs_match h rfl hm hl hslash hnd hl rfl hrun
  obtain ⟨rfl, -⟩ := EStateM.Result.ok.inj (hdraft.symm.trans hdraft')
  rw [hrel] at hone
  obtain ⟨p, rfl, hp⟩ := List.map_eq_singleton_iff.1 (beq_iff_eq.1 hconns)
  obtain ⟨graph, hgraph, hmatch⟩ := hall p (List.mem_singleton.2 rfl)
  exact ⟨s', layers, t', relations, elements, p.1, graph, h, hl, hrun, hrel, Option.some.inj hone, hmatch, by
    rw [listAt_graphValue hgraph]; exact hp⟩

end TraceArtifacts.Graph
