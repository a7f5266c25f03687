import TraceArtifacts.Proofs.Calls
import TraceArtifacts.Proofs.Connections
import TraceArtifacts.Proofs.GroupCounts
import Mathlib.Data.List.Perm.Basic

/-!
# Proofs: connections that are repeated

A graph takes the connections of an element once for each time that its group is listed there, and for each of them the group is
looked up at the other end in the same way.
-/

namespace TraceArtifacts.Graph

variable {relations : List Relation} {s s' : Session} {u : Unit} {base l l' layers strategy : Value}

/-! ## Lists -/

theorem flatMap_ite (p : α → Bool) (added : List β) (xs : List α) :
    (xs.flatMap fun x => if p x then added else []) = (List.replicate (xs.countP p) added).flatten := by
  induction xs with
  | nil => rfl
  | cons x xs ih =>
    rw [List.flatMap_cons, ih, List.countP_cons]
    by_cases hx : p x = true
    · simp [hx, List.replicate_succ]
    · simp [hx]

theorem flatMap_comm_perm (xs : List α) (ys : List β) (f : α → β → List γ) :
    (xs.flatMap fun x => ys.flatMap (f x)).Perm (ys.flatMap fun y => xs.flatMap fun x => f x y) := by
  induction xs with
  | nil => simp
  | cons x xs ih =>
    simp only [List.flatMap_cons]
    exact (ih.append_left _).trans (List.flatMap_append_perm ys (f x) _)

theorem flatten_replicate_flatMap_perm (k : Nat) (xs : List α) (f : α → List β) :
    (List.replicate k (xs.flatMap f)).flatten.Perm (xs.flatMap fun x => (List.replicate k (f x)).flatten) := by
  have h := flatMap_comm_perm (List.replicate k ()) xs fun _ => f
  simpa only [List.flatMap_replicate] using h

theorem flatMap_of_unique {xs : List α} (hnd : xs.Nodup) {x : α} (hx : x ∈ xs) {f : α → List β}
    (h : ∀ y ∈ xs, y ≠ x → f y = []) : xs.flatMap f = f x := by
  induction xs with
  | nil => simp at hx
  | cons z zs ih =>
    rw [List.nodup_cons] at hnd
    rw [List.flatMap_cons]
    rcases List.mem_cons.1 hx with rfl | hx
    · have hrest : zs.flatMap f = [] := List.flatMap_eq_nil_iff.2 fun y hy =>
        h y (.tail _ hy) fun e => hnd.1 (e ▸ hy)
      rw [hrest, List.append_nil]
    · rw [h z (.head _) fun e => hnd.1 (e ▸ hx), List.nil_append]
      exact ih hnd.2 hx fun y hy => h y (.tail _ hy)

theorem flatMap_zipIdx_filter {p : α → Bool} {G : α → List γ} {xs : List α} {F : β → Nat → List γ} {ks : List β}
    (hlen : ks.length = xs.countP p) (h : ∀ i x k, xs[i]? = some x → p x = true →
      ks[(xs.take i).countP p]? = some k → F k ((xs.take i).countP p) = G x) :
    (ks.zipIdx.flatMap fun q => F q.1 q.2) = xs.flatMap fun x => if p x then G x else [] := by
  induction xs generalizing F ks with
  | nil =>
    obtain rfl := List.eq_nil_of_length_eq_zero hlen
    rfl
  | cons x xs ih =>
    by_cases hx : p x = true
    · rw [List.countP_cons_of_pos hx] at hlen
      obtain ⟨k, ks, rfl⟩ := List.exists_cons_of_length_eq_add_one hlen
      have hfirst : F k 0 = G x := h 0 x k rfl hx rfl
      have hrest := ih (F := fun k j => F k (j + 1)) (Nat.succ.inj hlen) fun i y k' hy hp hk => by
        have hnext := h (i + 1) y k' hy hp
        rw [List.take_succ_cons, List.countP_cons_of_pos hx] at hnext
        exact hnext hk
      rw [List.zipIdx_cons, List.flatMap_cons, List.flatMap_cons, if_pos hx, ← hrest, hfirst, List.zipIdx_succ, List.flatMap_map]
    · rw [List.countP_cons_of_neg hx] at hlen
      rw [List.flatMap_cons, if_neg hx, List.nil_append]
      refine ih hlen fun i y k hy hp hk => ?_
      have hnext := h (i + 1) y k hy hp
      rw [List.take_succ_cons, List.countP_cons_of_neg hx] at hnext
      exact hnext hk

theorem exists_forall₂ {R : α → β → Prop} {xs : List α} (h : ∀ x ∈ xs, ∃ y, R x y) : ∃ ys, List.Forall₂ R xs ys := by
  induction xs with
  | nil => exact ⟨[], .nil⟩
  | cons x xs ih =>
    obtain ⟨y, hy⟩ := h x (.head _)
    obtain ⟨ys, hys⟩ := ih fun x' hx' => h x' (.tail _ hx')
    exact ⟨y :: ys, .cons hy hys⟩

theorem nodup_flatMap_replicate {k : α → Nat} {f : α → β} {xs : List α} : (xs.flatMap fun x => List.replicate (k x) (f x)).Nodup ↔
      (∀ x ∈ xs, k x ≤ 1) ∧ xs.Pairwise fun x y => 0 < k x → 0 < k y → f x ≠ f y := by
  have hdisjoint : ∀ x y, List.Disjoint (List.replicate (k x) (f x)) (List.replicate (k y) (f y)) ↔ (0 < k x → 0 < k y → f x ≠ f y) := by
    intro x y
    simp only [List.Disjoint, List.mem_replicate, Nat.pos_iff_ne_zero]
    constructor
    · exact fun h hx hy he => h ⟨hx, rfl⟩ ⟨hy, he⟩
    · rintro h a ⟨hx, rfl⟩ ⟨hy, he⟩
      exact h hx hy he
  rw [List.nodup_flatMap]
  refine and_congr (forall₂_congr fun x _ => List.nodup_replicate) ?_
  exact List.Pairwise.iff hdisjoint

/-! ## Wires -/

/-- A relation with the elements at its ends and the connection between them. -/
structure Wire where
  relation : Relation
  producer : Element
  consumer : Element
  connection : Connection

structure IsWire (relations : List Relation) (elements : List Element) (i : Nat) (w : Wire) : Prop where
  joined : Joined relations i w.relation w.producer w.consumer
  produced : w.producer ∈ elements
  consumed : w.consumer ∈ elements
  connected : connectionOf relations i w.relation w.producer w.consumer = .ok w.connection

structure Wired (relations : List Relation) (elements : List Element) (wires : List Wire) : Prop where
  all : wires.map Wire.relation = relations
  wire : ∀ {i w}, wires[i]? = some w → IsWire relations elements i w

def isTableNamed (name : Value) : OutputItem → Bool
  | .table u => name.same u.name
  | .var _ => false

def Wire.tables (w : Wire) : Nat :=
  w.producer.outputs.countP (isTableNamed (w.relation.fromTable.get "interface_name"))

def Wire.repeats (w : Wire) (n : String) : Nat :=
  listed w.producer.groups n * (w.tables * listed w.consumer.groups n)

def Wire.startsAt (w : Wire) (e : Element) (o : OutputItem) : Bool :=
  w.relation.fromPath == procedurePath e.origin && isTableNamed (w.relation.fromTable.get "interface_name") o

section Wires

variable {elements : List Element} (h : BuiltAlone layers relations elements)
include h

theorem BuiltAlone.exists_wires {os : List Operator} (hos : List.Forall₂ IsOperatorOf elements os) :
    ∃ wires, Wired relations elements wires := by
  have hall : ∀ q ∈ relations.zipIdx, ∃ w : Wire, q.1 = w.relation ∧ IsWire relations elements q.2 w := by
    rintro ⟨r, i⟩ hq
    have hi := List.mem_zipIdx_iff_getElem?.1 hq
    obtain ⟨x, y, hjoins⟩ := buildRelations_grounded h.fresh.base h.related (List.mem_of_getElem? hi)
    obtain ⟨o, ho, -, -⟩ := hjoins.writer
    obtain ⟨o', ho', -, -⟩ := hjoins.reader
    obtain ⟨e, he, hs⟩ := h.element ho
    obtain ⟨e', he', hs'⟩ := h.element ho'
    obtain ⟨op, -, hop⟩ := forall₂_mem_left hos he
    obtain ⟨op', -, hop'⟩ := forall₂_mem_left hos he'
    have hj : Joined relations i r e e' := ⟨hi, by rw [hs.origin, hjoins.fromPath], by rw [hs'.origin, hjoins.toPath]⟩
    obtain ⟨c, hc, -⟩ := h.connection hj he he' hop hop'
    exact ⟨⟨r, e, e', c⟩, rfl, hj, he, he', hc⟩
  obtain ⟨wires, hwires⟩ := exists_forall₂ hall
  refine ⟨wires, ?_, fun {i w} hw => ?_⟩
  · have hmap : List.Forall₂ Eq (relations.zipIdx.map Prod.fst) (wires.map Wire.relation) :=
      List.forall₂_map_left_iff.2 (List.forall₂_map_right_iff.2 (hwires.imp fun q w hw => hw.1))
    rw [List.forall₂_eq_eq_eq, List.zipIdx_map_fst] at hmap
    exact hmap.symm
  · obtain ⟨⟨r, j⟩, hq, -, hwire⟩ := forall₂_getElem? hwires.flip hw
    have hj : 0 + i = j := by
      rw [List.getElem?_zipIdx] at hq
      obtain ⟨r', -, hr⟩ := Option.map_eq_some_iff.1 hq
      exact (Prod.mk.inj hr).2
    rw [Nat.zero_add] at hj
    exact hj ▸ hwire

variable {wires : List Wire} (hw : Wired relations elements wires)
include hw

theorem BuiltAlone.outputConnections_eq {e : Element} (he : e ∈ elements) {o : OutputItem} (ho : o ∈ e.outputs)
    (hnamed : ∀ u, .table u ∈ e.outputs → ∃ n, u.name = .text n) (m : String) :
    outputConnections (.text e.name) o m = wires.flatMap fun w =>
      if w.startsAt e o then List.replicate (listed w.consumer.groups m) w.connection.toValue else [] := by
  cases o with
  | var v => simp [outputConnections, Wire.startsAt, isTableNamed]
  | table u =>
    obtain ⟨n, hn⟩ := hnamed u ho
    have hat : ∀ w : Wire, w.startsAt e (.table u) = Relation.isAtTable .outgoing e.origin u.name w.relation := fun _ => rfl
    have hcount : ∀ ws : List Wire, ws.countP (fun w => w.startsAt e (.table u)) =
        (ws.map Wire.relation).countP (Relation.isAtTable .outgoing e.origin u.name) := by
      intro ws
      rw [List.countP_map]
      rfl
    obtain ⟨l, -, hlinks⟩ := single_links (h.origin he).1 h.noted ho
    refine flatMap_zipIdx_filter (F := fun k j => linkConnections (.text e.name) (u.name.textOrEmpty ++ toString j) k m)
      (p := fun w : Wire => w.startsAt e (.table u)) ?_ fun i w k hi hp hk => ?_
    · rw [hcount, hw.all, List.countP_eq_length_filter, hlinks.length_eq]
    · -- the number of the link is that of the relation among those of the table
      have hwire := hw.wire hi
      rw [hat, Relation.isAtTable, Bool.and_eq_true, beq_iff_eq, hn, same_text_iff] at hp
      obtain rfl : w.producer = e := h.unique hwire.produced he (hwire.joined.producer.trans hp.1)
      obtain ⟨k', hk', hfor, hlisted⟩ := h.linkAt hwire.joined he hwire.consumed ho hn (entry_of_get_text hp.2)
      have hnumber : (wires.take i).countP (fun w' => w'.startsAt w.producer (.table u)) = linkNumber relations i w.producer n := by
        rw [hcount, List.map_take, hw.all, hn]
        rfl
      rw [hnumber] at hk ⊢
      obtain rfl := Option.mem_unique hk' hk
      have hconn := hfor.connectionOf_eq.symm.trans hwire.connected
      have hname : u.name.textOrEmpty = n := by rw [hn]; rfl
      simp only [linkConnections, hfor.target, Option.map_some, hname, hconn, hlisted]

theorem BuiltAlone.elementConnections_perm {e : Element} (he : e ∈ elements)
    (hnamed : ∀ u, .table u ∈ e.outputs → ∃ n, u.name = .text n) (m : String) :
    (elementConnections e m).Perm (wires.flatMap fun w =>
      List.replicate (e.outputs.countP (w.startsAt e) * listed w.consumer.groups m) w.connection.toValue) := by
  have heq : elementConnections e m = e.outputs.flatMap fun o => wires.flatMap fun w =>
      if w.startsAt e o then List.replicate (listed w.consumer.groups m) w.connection.toValue else [] :=
    List.flatMap_congr fun o ho => h.outputConnections_eq hw he ho hnamed m
  rw [heq]
  refine (flatMap_comm_perm ..).trans (List.Perm.of_eq (List.flatMap_congr fun w _ => ?_))
  rw [flatMap_ite, List.flatten_replicate_replicate]

theorem BuiltAlone.connections_perm (hnamed : ∀ e ∈ elements, ∀ u, .table u ∈ e.outputs → ∃ n, u.name = .text n) (m : String) :
    (elements.flatMap fun e => (List.replicate (listed e.groups m) (elementConnections e m)).flatten).Perm
      (wires.flatMap fun w => List.replicate (w.repeats m) w.connection.toValue) := by
  have hnd : elements.Nodup := by
    have hnames := procedureNames_nodup h.fresh.base
    rw [h.origins] at hnames
    exact hnames.of_map
  have hpart : ∀ e ∈ elements, (List.replicate (listed e.groups m) (elementConnections e m)).flatten.Perm
      (wires.flatMap fun w => List.replicate (listed e.groups m *
        (e.outputs.countP (w.startsAt e) * listed w.consumer.groups m)) w.connection.toValue) := by
    intro e he
    have hcopies := List.Perm.flatMap_left (List.replicate (listed e.groups m) ()) fun _ _ =>
      h.elementConnections_perm hw he (hnamed e he) m
    simp only [List.flatMap_replicate] at hcopies
    refine hcopies.trans ((flatten_replicate_flatMap_perm ..).trans (List.Perm.of_eq (List.flatMap_congr fun w _ => ?_)))
    rw [List.flatten_replicate_replicate]
  refine (List.Perm.flatMap_left _ hpart).trans ((flatMap_comm_perm ..).trans (List.Perm.of_eq (List.flatMap_congr fun w hmem => ?_)))
  obtain ⟨i, hi⟩ := List.getElem?_of_mem hmem
  have hwire := hw.wire hi
  rw [flatMap_of_unique hnd hwire.produced fun e he hne => ?_]
  · have htables : w.producer.outputs.countP (w.startsAt w.producer) = w.tables := by
      refine List.countP_congr fun o _ => ?_
      simp [Wire.startsAt, hwire.joined.producer]
    rw [htables, Wire.repeats]
  · -- the relation does not start from another element
    have hpath : w.relation.fromPath ≠ procedurePath e.origin := fun hp =>
      hne (h.unique he hwire.produced (hp.symm.trans hwire.joined.producer.symm))
    have hnone : e.outputs.countP (w.startsAt e) = 0 := List.countP_eq_zero.2 fun o _ => by simp [Wire.startsAt, hpath]
    rw [hnone, Nat.zero_mul, Nat.mul_zero, List.replicate_zero]

end Wires

/-! ## How often a group is listed -/

def groupName (x : ProcedureName) : String := x.1 ++ "_" ++ x.2

/-- How often the groups of this name take a procedure in. -/
noncomputable def entered (layers : Value) (relations : List Relation) (n : String) (y : ProcedureName) : Nat :=
  (((procedureNames layers).filter fun x => groupName x == n).map fun x => entries layers relations x y).sum

theorem listed_eq_toList (v : Value) (n : String) : listed v n = v.toList.countP fun m => (m.get "identifier").same (.text n) := by
  have htexts : ∀ {α : Type} (xs : List α) (f : α → String),
      (xs.map fun x => Value.text (f x)).countP (fun m => (m.get "identifier").same (.text n)) = 0 := by
    intro α xs f
    rw [List.countP_map]
    exact List.countP_eq_zero.2 fun _ _ => Bool.false_ne_true
  cases v with
  | list xs => rfl
  | text t => exact htexts t.toList fun c => c.toString
  | object fs => exact htexts fs fun f => f.1
  | _ => rfl

theorem countP_groupFrom (f : ProcedureName → Nat) (xs : List ProcedureName) (k : Nat) (n : String) :
    ((xs.zipIdx k).flatMap fun p => List.replicate (f p.1) (groupFrom p.1 p.2).toValue).countP
        (fun m => (m.get "identifier").same (.text n)) =
      ((xs.filter fun x => groupName x == n).map f).sum := by
  induction xs generalizing k with
  | nil => rfl
  | cons x xs ih =>
    have hname : (groupFrom x k).toValue.get "identifier" = .text (groupName x) := rfl
    rw [List.zipIdx_cons, List.flatMap_cons, List.countP_append, List.countP_replicate, ih, hname]
    by_cases hx : groupName x = n
    · simp [hx, same_text_iff]
    · simp [hx, same_text_iff]

def TablesNamed (layers : Value) : Prop :=
  ∀ x o t, procedureAt? layers x = some o → TableOf "input_tables" o t ∨ TableOf "output_tables" o t →
    ∃ i d, t.entry "interface_name" = .ok i ∧ t.entry "dbobject_name" = .ok d

theorem groupable_of_stored {P : BaseParts → Prop} (hf : FreshBase base) (hstored : ∀ {x o}, procedureAt? base x = some o → Stored P o)
    (hslash : ∀ x ∈ procedureNames base, SlashFree x) (htables : TablesNamed base) (hrel : buildRelations base = .ok relations)
    (hset : base.setEntry relationsKey (.list (relations.map Relation.toValue)) = .ok l) : Groupable l relations := by
  have hbase : l.at? [.key baseKey] = base.at? [.key baseKey] := Value.at?_setEntry_ne hset (by decide)
  have hfind : ∀ x, procedureAt? l x = procedureAt? base x := procedureAt?_congr hbase
  refine ⟨(hf.congr hbase).base, fun x hx => hslash x ?_, fun {x o} ho => ?_, fun {x o t} ho => ?_, fun {x o} ho => ?_, ?_,
    Value.at?_setEntry_self hset⟩
  · rwa [procedureNames_congr hbase] at hx
  · rw [hfind] at ho
    obtain ⟨b, name, category, -, rfl⟩ := hstored ho
    exact ⟨_, _, category, rfl, rfl, rfl⟩
  · rw [hfind] at ho
    exact htables x o t ho
  · rw [hfind] at ho
    obtain ⟨b, name, category, -, rfl⟩ := hstored ho
    rfl
  · rw [buildRelations_congr hf.base hbase, hrel]

theorem setGroups_listed {settings : Settings} (hg : Groupable l relations) (ha : Acyclic (relationGraph relations))
    (hs : settings.entry Setting.groupStrategy = .ok strategy) (hf : strategy.same (.int functionalGrouping) = true) {k : Nat}
    {g : GroupState} (h : setGroups settings { layers := l, nextId := k } = .ok u g) {y : ProcedureName} (hy : y ∈ procedureNames l)
    (n : String) : (groupsAt g.layers y).countP (fun m => (m.get "identifier").same (.text n)) = entered l relations n y := by
  obtain ⟨rows, hrows⟩ := hg.base
  obtain ⟨g', hg', hgroups⟩ := startGroups_run hg ha (fun x hx => hx) (s := { layers := l, nextId := k }) hg.ready
  simp only [setGroups, run_parts] at h
  obtain ⟨strategy', hstrategy, base, hbase, h⟩ := h
  obtain rfl := ok_unique hs hstrategy
  obtain rfl := ok_unique hrows.entry hbase
  rw [if_pos hf, forEachFunction_eq hrows] at h
  obtain ⟨-, rfl⟩ := EStateM.Result.ok.inj (hg'.symm.trans h)
  -- procedures are in no group before
  have hnone : groupsAt l y = [] := by
    obtain ⟨o, ho⟩ := (mem_procedureNames hg.base).1 hy
    obtain ⟨fs, rfl⟩ := hg.records ho
    rw [groupsAt, ho]
    exact toList_of_not_truthy (ok_unique (isGrouped_object fs) (hg.ungrouped ho))
  rw [hgroups, hnone, List.nil_append]
  exact countP_groupFrom (fun x => entries l relations x y) (procedureNames l) k n

theorem alike_categoryAt {keys : List String} (h : Alike keys l l') (hk : "metadata" ∉ keys) (y : ProcedureName) :
    categoryAt l' y = categoryAt l y := by
  unfold categoryAt
  cases ho : procedureAt? l y with
  | some o =>
    obtain ⟨o', ho', hs⟩ := h.procedure ho
    rw [ho', Option.map_some, Option.map_some, hs.get hk]
  | none =>
    cases ho' : procedureAt? l' y with
    | none => rfl
    | some o' =>
      obtain ⟨o, hsome, -⟩ := h.procedure' ho'
      rw [ho] at hsome
      cases hsome

theorem entered_congr (hnames : procedureNames l' = procedureNames l) (hcategory : ∀ y, categoryAt l' y = categoryAt l y)
    (relations : List Relation) (n : String) (y : ProcedureName) : entered l' relations n y = entered l relations n y := by
  simp only [entered, entries, hnames, hcategory]

theorem alike_tablesNamed {keys : List String} (h : Alike keys l l') (hk : ∀ k ∈ ["input_tables", "output_tables"], k ∉ keys)
    (ht : TablesNamed l') : TablesNamed l := by
  intro x o t ho htable
  obtain ⟨o', ho', hs⟩ := h.procedure ho
  have hsame : ∀ k ∈ ["input_tables", "output_tables"], TableOf k o t → TableOf k o' t := by
    rintro k hmem ⟨ts, hts, hin⟩
    exact ⟨ts, (hs.partsUnder (hk k hmem)).trans hts, hin⟩
  exact ht x o' t ho' (htable.imp (hsame _ (by simp)) (hsame _ (by simp)))

theorem fillConsumption_listed {P : BaseParts → Prop} {t : Session} (h : fillConsumption t = .ok u s')
    (ht : t.settings.entry Setting.layers = .ok base) (hf : FreshBase base) (hstored : ∀ {x o}, procedureAt? base x = some o → Stored P o)
    (hm : MergesNothing t.settings) (hstrategy : t.settings.entry Setting.groupStrategy = .ok strategy)
    (hfun : strategy.same (.int functionalGrouping) = true) (hs : s'.settings.entry Setting.layers = .ok layers)
    (hslash : ∀ x ∈ procedureNames layers, SlashFree x) (htables : TablesNamed layers) (hrel : buildRelations layers = .ok relations)
    (ha : Acyclic (relationGraph relations)) :
    List.Forall₂ (fun x e => ∀ n, listed (e.get "groups" .null) n = entered layers relations n x) (procedureNames layers)
      (layers.listAt consumptionKey) := by
  obtain ⟨es, t1, l1, final, hrun, hl1, hfinal, rfl⟩ := fillConsumption_ok h
  obtain ⟨relations', l, g, st, b, hrel', hset, hg, hst, hb, rfl⟩ := relateAndBuild_ok hrun ht
  rw [Settings.entry_set_self] at hl1 hs
  cases hl1
  obtain rfl := Except.ok.inj hs
  -- all layers on the way are alike but for groups and marks
  obtain ⟨hlbase, halike, hfg, -, -⟩ := groupedFrom hf hrel' hset hg t.shownGroups
  have hrefreshed : (refreshGroups t.shownGroups g.layers).at? [.key baseKey] = g.layers.at? [.key baseKey] :=
    at?_refreshGroups (by decide) ..
  have hm' : MergesNothing st := fun m hmerge => hm m ((hst _ (by decide)).symm.trans hmerge)
  obtain ⟨hsingle, hmarks, -⟩ := buildConsumption_single hb hfg.base hfg.records hm' hfg.unmerged
  have hsame : Alike ["groups", mergedKey] l b.layers := (halike.mono (by simp)).trans (hmarks.mono (by simp))
  have hbase : final.at? [.key baseKey] = b.layers.at? [.key baseKey] := by
    rw [Value.at?_setEntry_ne hfinal (by decide), relatedTypes_base]
  have hnames : procedureNames final = procedureNames l := (procedureNames_congr hbase).trans hsame.names
  have hcategory : ∀ y, categoryAt final y = categoryAt l y := by
    intro y
    rw [← alike_categoryAt hsame (by decide), categoryAt, categoryAt, procedureAt?_congr hbase]
  obtain rfl : relations' = relations := by
    rw [buildRelations_congr hsame.base' hbase, hsame.buildRelations_eq (by decide), buildRelations_congr hf.base hlbase, hrel'] at hrel
    exact Except.ok.inj hrel
  have htables' : TablesNamed base := by
    have hbuilt : TablesNamed b.layers := fun x o t ho => htables x o t ((procedureAt?_congr hbase _).trans ho)
    have hnoted := alike_tablesNamed hsame (by decide) hbuilt
    exact fun x o t ho => hnoted x o t ((procedureAt?_congr hlbase _).trans ho)
  have hgroupable := groupable_of_stored hf hstored
    (fun x hx => hslash x (by rwa [hnames, procedureNames_congr hlbase])) htables' hrel' hset
  have hshown : final.listAt consumptionKey = es.map Element.toValue := by
    rw [Value.listAt, Value.get_of_entry (Value.entry_eq_ok_iff.2 (Value.at?_setEntry_self hfinal))]
    rfl
  rw [hshown, hnames, List.forall₂_map_right_iff, ← halike.names]
  refine (forall₂_mem hsingle).imp fun x e hxe n => ?_
  obtain ⟨hx, -, he⟩ := hxe
  obtain ⟨-, o, -, -, -, -, ho, -⟩ := id he
  have hgroup : groupsAt g.layers x = (o.get "groups" .null).toList := by
    rw [groupsAt, ← procedureAt?_congr hrefreshed, ho]
    rfl
  rw [get_groups_element, single_listed he ho, listed_eq_toList, ← hgroup, entered_congr hnames hcategory]
  refine setGroups_listed hgroupable ha ?_ hfun hg (halike.names ▸ hx) n
  rw [Settings.entry_set_ne (by decide), hstrategy]

theorem processTrace_listed {raiseOnError logStatements own : Bool} (h : processTrace raiseOnError logStatements own s = .ok u s')
    (hl : s.settings.entry Setting.layers = .ok (.object [])) (hm : MergesNothing s.settings)
    (hstrategy : s.settings.entry Setting.groupStrategy = .ok strategy) (hfun : strategy.same (.int functionalGrouping) = true)
    (hs : s'.settings.entry Setting.layers = .ok layers) (hslash : ∀ x ∈ procedureNames layers, SlashFree x)
    (htables : TablesNamed layers) (hrel : buildRelations layers = .ok relations) (ha : Acyclic (relationGraph relations)) :
    List.Forall₂ (fun x e => ∀ n, listed (e.get "groups" .null) n = entered layers relations n x) (procedureNames layers)
      (layers.listAt consumptionKey) := by
  rcases processTrace_fresh storesAs_trivial h hl trivial with ⟨-, rfl⟩ | ⟨t, base, hst, ht, hf, hstored, hfill⟩
  · obtain rfl := ok_unique hl hs
    exact .nil
  · have hm' : MergesNothing t.settings := fun m hmerge => hm m ((hst _ (by decide)).symm.trans hmerge)
    exact fillConsumption_listed hfill ht hf hstored hm' ((hst _ (by decide)).trans hstrategy) hfun hs hslash htables hrel ha

/-! ## Graphs of a session -/

/-- How often the connection of a relation is in the graph of a group: the groups of this name take in the procedure that writes
and the one that reads, and each time for one is paired with each time for the other. -/
noncomputable def Wire.crossings (w : Wire) (layers : Value) (relations : List Relation) (n : String) : Nat :=
  entered layers relations n w.producer.origin * (w.tables * entered layers relations n w.consumer.origin)

theorem connection_toValue_inj {c c' : Connection} (h : c.toValue = c'.toValue) : c = c' := by
  obtain ⟨sourcePort, source, targetPort, target⟩ := c
  obtain ⟨sourcePort', source', targetPort', target'⟩ := c'
  simpa [Connection.toValue, and_assoc] using h

theorem writeGraphs_ok {path : Value} {graphs : GraphDrafts} (h : writeGraphs path graphs s = .ok u s') {p : Value × GraphDraft}
    (hp : p ∈ graphs) : ∃ graph, graphValue (.list p.2.operators) (.list p.2.connections) = .ok graph := by
  obtain ⟨t, v, t', -, hrun⟩ := forM_run_mem (I := fun _ => True) (fun _ _ _ _ _ _ _ => trivial) h trivial hp
  obtain ⟨graph, hgraph, -⟩ := run_lift_bind_ok.1 hrun
  exact ⟨graph, hgraph⟩

/-- Without merging and with procedures grouped by function, the connections of the graphs of a session that was processed from
scratch: each graph has the connection of a relation as often as walks between procedures make it, so nothing is connected
twice just if there is at most one way to each pair and no two relations are connected alike. -/
theorem draftAndWrite_repeats {raiseOnError logStatements own : Bool} {s s' : Session} {u : Unit}
    (h : processTrace raiseOnError logStatements own s = .ok u s')
    (hl : s.settings.entry Setting.layers = .ok (.object [])) (hm : MergesNothing s.settings) {strategy : Value}
    (hstrategy : s.settings.entry Setting.groupStrategy = .ok strategy)
    (hfun : strategy.same (.int functionalGrouping) = true) {layers : Value}
    (hs : s'.settings.entry Setting.layers = .ok layers) (hslash : ∀ x ∈ procedureNames layers, SlashFree x)
    (htables : TablesNamed layers) {relations : List Relation} (hrel : buildRelations layers = .ok relations)
    (ha : Acyclic (relationGraph relations)) {t t' : Session} {l : Value} (ht : t.settings.entry Setting.layers = .ok l)
    (hlt : l.entry consumptionKey = layers.entry consumptionKey) {path : Value} {w : Unit}
    (hrun : draftAndWrite path { serveResults := false, trackModels := false } t = .ok w t') :
    ∃ elements wires graphs t1, layers.entry consumptionKey = .ok (.list (elements.map Element.toValue)) ∧
      elements.map Element.origin = procedureNames layers ∧ Wired relations elements wires ∧
      drafting (draftAll t.settings { serveResults := false, trackModels := false }) t = .ok graphs t1 ∧
      writeGraphs path graphs t1 = .ok () t' ∧
      ∀ p ∈ graphs, ∃ n graph, p.1 = .text n ∧ graphValue (.list p.2.operators) (.list p.2.connections) = .ok graph ∧
        (graph.listAt "connections").Perm (wires.flatMap fun w => List.replicate (w.crossings layers relations n) w.connection.toValue) ∧
        ((graph.listAt "connections").Nodup ↔ (∀ w ∈ wires, w.crossings layers relations n ≤ 1) ∧
          wires.Pairwise fun w w' => 0 < w.crossings layers relations n → 0 < w'.crossings layers relations n →
            w.connection ≠ w'.connection) := by
  obtain ⟨grouped, relations', elements, os, graphs, t1, hb, hrel', horigins, hcons, hgraphs, hwrite, hd⟩ :=
    draftAndWrite_drafted h hl hm hs hslash ht hlt hrun
  obtain rfl := ok_unique hrel hrel'
  obtain ⟨wires, hw⟩ := hb.exists_wires hd.built
  -- groups are listed as often as walks say
  have hlisted : ∀ e ∈ elements, ∀ n, listed e.groups n = entered layers relations n e.origin := by
    have hall := processTrace_listed h hl hm hstrategy hfun hs hslash htables hrel ha
    have hshown : layers.listAt consumptionKey = elements.map Element.toValue := by
      rw [Value.listAt, Value.get_of_entry hcons]
      rfl
    rw [hshown, ← horigins, List.forall₂_map_right_iff, List.forall₂_map_left_iff, List.forall₂_same] at hall
    intro e he n
    rw [← get_groups_element, hall e he]
  have hcrossings : ∀ n, ∀ w ∈ wires, w.repeats n = w.crossings layers relations n := by
    intro n w hmem
    obtain ⟨i, hi⟩ := List.getElem?_of_mem hmem
    have hwire := hw.wire hi
    rw [Wire.repeats, hlisted _ hwire.produced, hlisted _ hwire.consumed, Wire.crossings]
  have hnamed : ∀ e ∈ elements, ∀ u, .table u ∈ e.outputs → ∃ n, u.name = .text n := by
    intro e he
    obtain ⟨o, -, ho⟩ := forall₂_mem_left hd.built he
    exact ho.named
  refine ⟨elements, wires, graphs, t1, hcons, horigins, hw, hgraphs, hwrite, fun p hp => ?_⟩
  obtain ⟨n, hn⟩ := hd.keyed.text p hp
  obtain ⟨graph, hgraph⟩ := writeGraphs_ok hwrite hp
  have hat : graphAt graphs n = p.2 := graphAt_of_mem hd.keyed.nodup (hn ▸ hp)
  have hperm : (graph.listAt "connections").Perm
      (wires.flatMap fun w => List.replicate (w.crossings layers relations n) w.connection.toValue) := by
    have hconns : graph.listAt "connections" = p.2.connections := listAt_graphValue hgraph
    rw [hconns, ← hat, hd.connections]
    refine (hb.connections_perm hw hnamed n).trans (List.Perm.of_eq (List.flatMap_congr fun w hmem => ?_))
    rw [hcrossings n w hmem]
  refine ⟨n, graph, hn, hgraph, hperm, ?_⟩
  rw [hperm.nodup_iff, nodup_flatMap_replicate]
  refine and_congr_right fun _ => List.Pairwise.iff fun w w' => ?_
  exact forall₂_congr fun _ _ => not_congr ⟨connection_toValue_inj, congrArg Connection.toValue⟩

def tablesNamed (layers : Value) : Bool :=
  (proceduresOf layers).all fun p => ["input_tables", "output_tables"].all fun k =>
    ((partsUnder k p.2.2).toOption.getD []).all fun t =>
      (t.entry "interface_name").toOption.isSome && (t.entry "dbobject_name").toOption.isSome

theorem entry_of_isSome {t : Value} {k : String} (h : (t.entry k).toOption.isSome = true) : ∃ v, t.entry k = .ok v := by
  cases ht : t.entry k with
  | ok v => exact ⟨v, rfl⟩
  | error e => simp [ht, Except.toOption] at h

theorem tablesNamed_ok (hb : IsBaseLayer layers) (h : tablesNamed layers = true) : TablesNamed layers := by
  have hlist : ∀ k ∈ ["input_tables", "output_tables"], ∀ {x o t}, procedureAt? layers x = some o → TableOf k o t →
      ∃ i d, t.entry "interface_name" = .ok i ∧ t.entry "dbobject_name" = .ok d := by
    rintro k hk x o t ho ⟨ts, hts, htable⟩
    have hp := List.all_eq_true.1 (List.all_eq_true.1 h _ ((mem_proceduresOf hb).2 ho)) k hk
    rw [hts] at hp
    obtain ⟨hi, hd⟩ := Bool.and_eq_true_iff.1 (List.all_eq_true.1 hp t htable)
    obtain ⟨i, hi⟩ := entry_of_isSome hi
    obtain ⟨d, hd⟩ := entry_of_isSome hd
    exact ⟨i, d, hi, hd⟩
  rintro x o t ho (ht | ht)
  · exact hlist _ (by simp) ho ht
  · exact hlist _ (by simp) ho ht

/-- A session with a call that fits and reads the table of another one twice, and nothing processed yet. Its tables come with
their names. -/
def crossedSession : Session where
  settings := Settings.builtin ++ [(Setting.mergeStrategy, .int 1), (Setting.groupStrategy, .int functionalGrouping),
    (Setting.layers, .object []), (Setting.entityContext, .text ""), (Setting.schema, .text "S"),
    (Setting.sourceMapping, .object [("S.D", .text "S.E")])]
  trace := .object [("RandomForestClassifier", .object [("P", linkedSession.linkedCall [] [namedTable "m"]),
     ("Fit", linkedSession.linkedCall [namedTable "e", namedTable "f"] [])])]
where
  namedTable (name : String) : Value := .object [("interface_name", .text name), ("dbobject_name", .text name), ("select", .text "T"),
      ("table_type", .text "table (\"ID\" INTEGER)"), ("cat", .null), ("in_sql", .bool true),
      ("transformed_name", .text name), ("object_name", .text name),
      ("dbobject_name_schema", .text "S")]

def isCrossed (s : Session) : Bool :=
  match s.settings.entry Setting.layers with
  | .ok layers =>
      procedureNames layers == [("RandomForestClassifier", "P"), ("RandomForestClassifier", "Fit")] && tablesNamed layers &&
        (buildRelations layers).toOption.map relationGraph ==
          some (List.replicate 2 (("RandomForestClassifier", "P"), ("RandomForestClassifier", "Fit")))
  | .error _ => false

theorem isCrossed_ok (h : isCrossed s = true) : ∃ layers relations,
    s.settings.entry Setting.layers = .ok layers ∧ (∀ x ∈ procedureNames layers, SlashFree x) ∧
      tablesNamed layers = true ∧ buildRelations layers = .ok relations ∧ Acyclic (relationGraph relations) := by
  unfold isCrossed at h
  cases hl : s.settings.entry Setting.layers with
  | error e => simp [hl] at h
  | ok layers =>
    simp only [hl, Bool.and_eq_true, beq_iff_eq] at h
    obtain ⟨⟨hnames, htables⟩, hgraph⟩ := h
    cases hrel : buildRelations layers with
    | error e => simp [hrel, Except.toOption] at hgraph
    | ok relations =>
      rw [hrel] at hgraph
      refine ⟨layers, relations, rfl, fun x hx => ?_, htables, hrel, ?_⟩
      · rw [hnames] at hx
        rcases List.mem_cons.1 hx with rfl | hx
        · exact ⟨by decide, by decide⟩
        · obtain rfl := List.mem_singleton.1 hx
          exact ⟨by decide, by decide⟩
      · rw [Option.some.inj hgraph]
        exact acyclic_of_rank (fun x => if x.2 = "Fit" then 1 else 0) (by decide)

def repeatsTwo (g : GraphDraft) : Bool :=
  match g.connections with
  | [v, w, v', w'] => v.same v' && w.same w'
  | _ => false

theorem repeatsTwo_ok {g : GraphDraft} (h : repeatsTwo g = true) : ∃ v w v' w', g.connections = [v, w, v', w'] ∧
    v.same v' = true ∧ w.same w' = true := by
  unfold repeatsTwo at h
  split at h
  · exact ⟨_, _, _, _, by assumption, Bool.and_eq_true_iff.1 h⟩
  · cases h

theorem crossedSession_runs : ∃ s' layers relations graphs t t' p, processTrace true false true crossedSession = .ok () s' ∧
    s'.settings.entry Setting.layers = .ok layers ∧ (∀ x ∈ procedureNames layers, SlashFree x) ∧ TablesNamed layers ∧
    buildRelations layers = .ok relations ∧ Acyclic (relationGraph relations) ∧
    drafting (draftAll s'.settings { serveResults := false, trackModels := false }) s' = .ok graphs t ∧
    writeGraphs (.text ".") graphs t = .ok () t' ∧ p ∈ graphs ∧ repeatsTwo p.2 = true := by
  have hrun : succeedsWith (fun _ s' => isCrossed s' && succeedsWith (fun graphs t =>
        graphs.any (fun p => repeatsTwo p.2) && succeedsWith (fun _ _ => true) (writeGraphs (.text ".") graphs t))
        (drafting (draftAll s'.settings { serveResults := false, trackModels := false }) s'))
      (processTrace true false true crossedSession) = true := by decide +kernel
  obtain ⟨_, s', h, htest⟩ := exists_of_succeedsWith hrun
  obtain ⟨hcrossed, htest⟩ := Bool.and_eq_true_iff.1 htest
  obtain ⟨layers, relations, hl, hslash, htables, hrel, ha⟩ := isCrossed_ok hcrossed
  obtain ⟨graphs, t, hdraft, htest⟩ := exists_of_succeedsWith htest
  obtain ⟨htwice, htest⟩ := Bool.and_eq_true_iff.1 htest
  obtain ⟨p, hp, htwice⟩ := List.any_eq_true.1 htwice
  obtain ⟨_, t', hwrite, -⟩ := exists_of_succeedsWith htest
  have hnamed : TablesNamed layers := by
    rcases processTrace_stored storesAs_trivial h rfl trivial with ⟨hfalsy, -⟩ | ⟨layers', hl', hb, -⟩
    · exact absurd hfalsy (by decide)
    · obtain rfl := ok_unique hl hl'
      exact tablesNamed_ok hb htables
  exact ⟨s', layers, relations, graphs, t, t', p, h, hl, hslash, hnamed, hrel, ha, hdraft, hwrite, hp, htwice⟩

theorem crossedSession_mergesNothing : MergesNothing crossedSession.settings := mergesNothing_of_entry rfl (by decide)

/-- The connections of the sample are as many as walks say. -/
theorem draftAndWrite_repeats_sample : ∃ (s' : Session) (layers : Value) (relations : List Relation)
      (elements : List Element) (wires : List Wire) (n : String) (graph : Value),
    processTrace true false true crossedSession = .ok () s' ∧ s'.settings.entry Setting.layers = .ok layers ∧
      buildRelations layers = .ok relations ∧ Acyclic (relationGraph relations) ∧ Wired relations elements wires ∧
      (graph.listAt "connections").length = 4 ∧
      (graph.listAt "connections").Perm (wires.flatMap fun w => List.replicate (w.crossings layers relations n) w.connection.toValue) := by
  obtain ⟨s', layers, relations, graphs, t, t', p, h, hl, hslash, htables, hrel, ha, hdraft, hwrite, hp, htwice⟩ := crossedSession_runs
  have hrun : draftAndWrite (.text ".") { serveResults := false, trackModels := false } s' = .ok () t' :=
    run_bind_ok.2 ⟨s', s', rfl, run_bind_ok.2 ⟨graphs, t, hdraft, hwrite⟩⟩
  obtain ⟨elements, wires, graphs', t1, -, -, hw, hdraft', -, hall⟩ := draftAndWrite_repeats h rfl
    crossedSession_mergesNothing rfl (by decide) hl hslash htables hrel ha hl rfl hrun
  obtain ⟨rfl, -⟩ := EStateM.Result.ok.inj (hdraft.symm.trans hdraft')
  obtain ⟨n, graph, -, hgraph, hperm, -⟩ := hall p hp
  obtain ⟨v, w, v', w', hconns, -⟩ := repeatsTwo_ok htwice
  refine ⟨s', layers, relations, elements, wires, n, graph, h, hl, hrel, ha, hw, ?_, hperm⟩
  rw [listAt_graphValue hgraph, hconns]
  rfl

/-- Without merging, with procedures grouped by function and no cycle, a graph can have the same connection twice. -/
theorem draftAndWrite_connects_twice : ∃ s' layers relations graphs t t' p graph v w v' w',
    processTrace true false true crossedSession = .ok () s' ∧ MergesNothing crossedSession.settings ∧
      crossedSession.settings.entry Setting.groupStrategy = .ok (.int functionalGrouping) ∧
      s'.settings.entry Setting.layers = .ok layers ∧ buildRelations layers = .ok relations ∧
      Acyclic (relationGraph relations) ∧
      drafting (draftAll s'.settings { serveResults := false, trackModels := false }) s' = .ok graphs t ∧
      writeGraphs (.text ".") graphs t = .ok () t' ∧ p ∈ graphs ∧
      graphValue (.list p.2.operators) (.list p.2.connections) = .ok graph ∧
      graph.listAt "connections" = [v, w, v', w'] ∧ v.same v' = true ∧ w.same w' = true := by
  obtain ⟨s', layers, relations, graphs, t, t', p, h, hl, -, -, hrel, ha, hdraft, hwrite, hp, htwice⟩ := crossedSession_runs
  obtain ⟨graph, hgraph⟩ := writeGraphs_ok hwrite hp
  obtain ⟨v, w, v', w', hconns, hsame, hsame'⟩ := repeatsTwo_ok htwice
  exact ⟨s', layers, relations, graphs, t, t', p, graph, v, w, v', w', h, crossedSession_mergesNothing, rfl, hl, hrel, ha,
    hdraft, hwrite, hp, hgraph, (listAt_graphValue hgraph).trans hconns, hsame, hsame'⟩

end TraceArtifacts.Graph
