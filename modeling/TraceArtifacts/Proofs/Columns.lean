import TraceArtifacts.Proofs.Merging
import Mathlib.Data.List.Basic

/-!
# Proofs: the types of stored tables

Building the elements of a base layer reads the type of every table as components, which only a text has.
-/

namespace TraceArtifacts

variable {c : Contribution} {es : List Element} {relations : List Relation} {s s' : PartState} {x : ProcedureName}
  {groups layers linkType o t : Value}

/-! ## Table types that are texts -/

def HasColumns (o : Value) : Prop :=
  ∀ key ∈ ["input_tables", "output_tables"], ∀ t ∈ o.listAt key, ∃ s, t.get "table_type" = .text s

theorem HasColumns.sameBut {o' : Value} (h : HasColumns o) {keys : List String} (hs : o.SameBut keys o')
    (hkeys : ∀ k ∈ ["input_tables", "output_tables"], k ∉ keys) : HasColumns o' := by
  intro key hkey t ht
  rw [Value.listAt, hs.get (hkeys key hkey)] at ht
  exact h key hkey t ht

theorem structureColumns_text {mapping : Outcome Value} {v v' : Value} {s : String}
    (h : structureColumns mapping v = .ok s v') : ∃ t, v = .text t := by
  simp only [structureColumns, readColumns, run_bind_ok, run_get_ok] at h
  obtain ⟨_, _, ⟨_, _, ⟨rfl, rfl⟩, h⟩, -⟩ := h
  cases v with
  | text t => exact ⟨t, rfl⟩
  | list xs =>
    obtain ⟨_, _, -, h⟩ := run_bind_ok.1 h
    exact (run_throw_ok.1 h).elim
  | _ => exact (run_throw_ok.1 h).elim

theorem reading_text {place : Place} {key : String} {a : String} (h : PartStep.reading place structureColumns key s = .ok a s') :
    ∃ t, s.object.at? place = some (.text t) := by
  simp only [PartStep.reading, run_get_bind] at h
  cases hw : Change.within place (structureColumns (s.settings.entry key)) s.object with
  | error e o =>
    simp only [hw, run_bind_ok, run_throw_ok, and_false, exists_false] at h
  | ok b o =>
    obtain ⟨w, w', hplace, hc, -⟩ := Value.within_ok hw
    obtain ⟨t, rfl⟩ := structureColumns_text hc
    exact ⟨t, hplace⟩

def TextAt (key : String) (o : Value) (i : Nat) : Prop :=
  ∃ t, o.at? [.key key, .position i, .key "table_type"] = some (.text t)

theorem buildInput_text {i : Nat} {item : InputItem} (h : buildInput layers (.text x.1) (.text x.2) linkType t i s = .ok item s') :
    TextAt "input_tables" s.object i := by
  simp only [buildInput, run_parts] at h
  obtain ⟨_, -, _, -, _, -, _, t1, ht1, -⟩ := h
  exact reading_text ht1

theorem buildOutputTable_text {i : Nat} {item : OutputTable} (h : buildOutputTable layers (.text x.1) (.text x.2) t i s = .ok item s') :
    TextAt "output_tables" s.object i := by
  simp only [buildOutputTable, run_parts, run_pure_ok] at h
  obtain ⟨_, -, _, -, _, -, _, -, _, -, _, t1, ht1, _, t2, ht2, -⟩ := h
  obtain rfl : t1 = s := reading_ok entityColumns_ok ht1
  exact reading_text ht2

theorem text_of_positions {key : String} {ts : List Value} (hts : partsUnder key o = .ok ts) (h : ∀ p ∈ ts.zipIdx, TextAt key o p.2) :
    ∀ t ∈ o.listAt key, ∃ s, t.get "table_type" = .text s := by
  intro t ht
  cases o with
  | object fs =>
    rw [Value.listAt, Value.get_object] at ht
    cases hv : fs.lookup key with
    | none =>
      rw [hv] at ht
      simp [Value.toList] at ht
    | some v =>
      rw [hv] at ht
      cases v with
      | list xs =>
        rw [partsUnder_object, hv] at hts
        obtain rfl : xs = ts := Except.ok.inj hts
        obtain ⟨i, hi⟩ := List.getElem?_of_mem (show t ∈ xs from ht)
        obtain ⟨s, hs⟩ := h (t, i) (List.mem_zipIdx_iff_getElem?.2 hi)
        rw [Value.at?_key, hv, Option.bind_some] at hs
        change (xs[i]?).bind (Value.at? [.key "table_type"]) = _ at hs
        rw [hi, Option.bind_some, ← Value.entry_eq_ok_iff] at hs
        exact ⟨s, Value.get_of_entry hs .null⟩
      | _ => simp [Value.toList] at ht
  | _ => simp [Value.listAt, Value.get, Value.toList] at ht

theorem contribution_columns (h : contribution layers (.text x.1) (.text x.2) linkType s = .ok c s') : HasColumns s.object := by
  simp only [contribution, run_parts, run_pure_ok] at h
  obtain ⟨ts, hts, inputs, t1, h1, us, hus, tables, t2, h2, -⟩ := h
  have hin := mapM_run_ok (I := fun _ (t : PartState) => t.object = s.object) (R := fun p _ => TextAt "input_tables" s.object p.2)
    (fun p _ t i t' hI hp => by
      rw [← hI]
      exact ⟨(buildInput_ok hp).1.1, buildInput_text hp⟩) rfl h1
  have hout := mapM_run_ok (I := fun _ (t : PartState) => t.object = s.object) (R := fun p _ => TextAt "output_tables" s.object p.2)
    (fun p _ t o t' hI hp => by
      rw [← hI]
      exact ⟨congrArg _ (buildOutputTable_ok hp).1, buildOutputTable_text hp⟩) hin.1 h2
  have hinputs := text_of_positions hts fun p hp => by
    obtain ⟨_, -, hR⟩ := forall₂_mem_left hin.2 hp
    exact hR
  have houtputs := text_of_positions hus fun p hp => by
    obtain ⟨_, -, hR⟩ := forall₂_mem_left hout.2 hp
    exact hR
  intro key hkey
  rcases List.mem_pair.1 hkey with rfl | rfl
  · exact hinputs
  · exact houtputs

theorem contributionOf_columns {s s' : BuildState} (h : contributionOf (addressOf x) linkType s = .ok c s') :
    ∃ o, procedureAt? s.layers x = some o ∧ HasColumns o := by
  obtain ⟨o, p, ho, hc, -⟩ := contributionOf_iff.1 h
  exact ⟨o, ho, contribution_columns hc⟩

/-! ## Turns -/

/-- The layers as they were but for marks, which are on procedures with readable types. -/
structure Readable (layers : Value) (t : BuildState) : Prop where
  alike : Alike [mergedKey] layers t.layers
  marked : ∀ y, IsMarked t.layers y → ∃ o, procedureAt? layers y = some o ∧ HasColumns o

section Readable

variable {s s' : BuildState}

theorem Readable.contribute (h : Readable layers s) (hc : contributionOf (addressOf x) linkType s = .ok c s') :
    Readable layers s' ∧ ∃ o, procedureAt? layers x = some o ∧ HasColumns o := by
  obtain ⟨hl, -⟩ := contributionOf_ok hc
  obtain ⟨o, ho, hcolumns⟩ := contributionOf_columns hc
  obtain ⟨o', ho', hs⟩ := h.alike.procedure' ho
  exact ⟨⟨by rw [hl]; exact h.alike, by rw [hl]; exact h.marked⟩, o', ho', hcolumns.sameBut hs.symm (by decide)⟩

theorem Readable.mark (h : Readable layers s) {u : Unit} (hm : markMerged (addressOf x) s = .ok u s')
    (hx : ∃ o, procedureAt? layers x = some o ∧ HasColumns o) : Readable layers s' where
  alike := markMerged_alike hm h.alike
  marked := fun y hy => by
    rcases (markMerged_marked hm y).1 hy with rfl | hy
    · exact hx
    · exact h.marked y hy

theorem Readable.alone (h : Readable layers s) (hx : ∃ o, procedureAt? layers x = some o ∧ HasColumns o)
    (he : aloneElements (.text x.1) (.text x.2) groups c s = .ok es s') : Readable layers s' := by
  simp only [aloneElements, run_parts, run_pure_ok] at he
  obtain ⟨e, -, _, t, ht, -, rfl⟩ := he
  exact h.mark ht hx

theorem Readable.partition (hrel : HasRelations layers relations) (hpair : Paired relations) (h : Readable layers s) {l : Value}
    (hl : Alike [mergedKey] layers l) (hx : ∃ o, procedureAt? layers x = some o ∧ HasColumns o) {children : List Link}
    (hchildren : links l .outgoing (.text x.1) (.text x.2) = .ok children)
    (he : partitionElements (.text x.1) (.text x.2) groups c children s = .ok es s') : Readable layers s' := by
  simp only [partitionElements, run_bind_ok, run_pure_ok] at he
  obtain ⟨es', t, hes, _, t', ht', rfl, rfl⟩ := he
  have hrun := mapM_run_ok (I := fun rest (t : BuildState) => Readable layers t ∧ ∀ k ∈ rest, k ∈ children) (R := fun _ _ => True)
    (fun k rest t e t' hI hke => by
      obtain ⟨y, r, hpath, -⟩ := outgoing_links (hl.relations.trans hrel) hpair hchildren (hI.2 k (.head _))
      simp only [mergeChild, hpath, run_parts, run_pure_ok, ofPath_procedurePath] at hke
      obtain ⟨_, ⟨-, rfl⟩, c', t1, hc, _, -, _, t2, ht2, -, rfl⟩ := hke
      obtain ⟨ht1, hy⟩ := hI.1.contribute hc
      exact ⟨⟨ht1.mark ht2 hy, fun k' hk' => hI.2 k' (.tail _ hk')⟩, trivial⟩)
    ⟨h, fun k hk => hk⟩ hes
  exact hrun.1.1.mark ht' hx

theorem Readable.turn (hrel : HasRelations layers relations) (hpair : Paired relations) (h : Readable layers s)
    (he : buildElements (.text x.1) (.text x.2) linkType s = .ok es s') :
    Readable layers s' ∧ ∃ o, procedureAt? layers x = some o ∧ HasColumns o := by
  obtain ⟨_, groups, m, -, -, -, ⟨hmarked, -, rfl⟩ | ⟨-, c, t, hc, he⟩⟩ := buildElements_cases he
  · exact ⟨h, h.marked x hmarked⟩
  · obtain ⟨ht, hx⟩ := h.contribute hc
    refine ⟨?_, hx⟩
    split at he
    · rcases mergedElements_cases he with ⟨-, rfl⟩ | he | ⟨_, children, -, -, hchildren, he⟩
      · exact ht
      · exact ht.alone hx he
      · exact ht.partition hrel hpair h.alike hx hchildren he
    · exact ht.alone hx he

end Readable

theorem buildConsumption_columns {s s' : BuildState} (h : buildConsumption s = .ok es s') (hf : FreshBase s.layers)
    (hrel : HasRelations s.layers relations) (hpair : Paired relations) (ho : procedureAt? s.layers x = some o) : HasColumns o := by
  rw [buildConsumption_eq hf.base] at h
  obtain ⟨ess, t, hrun, h⟩ := run_bind_ok.1 h
  have hstart : Readable s.layers s := ⟨.refl _ hf.base hf.records, fun y hy => absurd hy (hf.not_marked y)⟩
  have hall := mapM_run_ok (I := fun _ t => Readable s.layers t) (R := fun x _ => ∃ o, procedureAt? s.layers x = some o ∧ HasColumns o)
    (fun x _ t es t' hI hx => hI.turn hrel hpair hx) hstart hrun
  obtain ⟨_, -, o', ho', hcolumns⟩ := forall₂_mem_left hall.2 ((mem_procedureNames hf.base).2 ⟨o, ho⟩)
  obtain rfl := Option.mem_unique ho ho'
  exact hcolumns

/-! ## Types in the trace -/

theorem withTypeOf_text {s : String} (h : o.get "table_type" = .text s) : withTypeOf t o = t := by
  rw [withTypeOf, h]

theorem zip_types {ts os : List Value} (h : ∀ o ∈ os, ∃ s, o.get "table_type" = .text s) :
    (ts.zip os).map (fun p => withTypeOf p.1 p.2) ++ ts.drop os.length = ts := by
  induction ts generalizing os with
  | nil => cases os <;> rfl
  | cons t ts ih =>
    cases os with
    | nil => rfl
    | cons o os =>
      obtain ⟨s, hs⟩ := h o (.head _)
      simp only [List.zip_cons_cons, List.map_cons, List.length_cons, List.drop_succ_cons, List.cons_append,
        withTypeOf_text hs, ih fun o' ho' => h o' (.tail _ ho')]

theorem tracedTypes_eq (h : ∀ p ∈ proceduresOf layers, HasColumns p.2.2) (trace : Value) : tracedTypes layers trace = trace := by
  refine (List.foldl_ext _ (fun trace _ => trace) trace fun trace p hp => ?_).trans (List.foldl_fixed _)
  refine (List.foldl_ext _ (fun trace _ => trace) trace fun trace key hkey => ?_).trans (List.foldl_fixed _)
  refine Value.modifyAt_eq_self fun tables _ => ?_
  cases tables with
  | list ts => exact congrArg Value.list (zip_types (h p hp key hkey))
  | _ => rfl

theorem relatedTypes_eq (h : ∀ p ∈ proceduresOf layers, HasColumns p.2.2) : relatedTypes layers = layers := by
  have hrefresh : ∀ key ∈ ["input_tables", "output_tables"], ∀ (same : String × String × Value → Bool)
      (named : Value → Bool) (table : Value),
      ((((proceduresOf layers).find? same).bind fun p => (p.2.2.listAt key).find? named).map (withTypeOf table)).getD table = table := by
    intro key hkey same named table
    cases hp : (proceduresOf layers).find? same with
    | none => rfl
    | some p =>
      cases ho : (p.2.2.listAt key).find? named with
      | none =>
        show (((p.2.2.listAt key).find? named).map (withTypeOf table)).getD table = table
        rw [ho]
        rfl
      | some o =>
        show (((p.2.2.listAt key).find? named).map (withTypeOf table)).getD table = table
        rw [ho]
        obtain ⟨s, hs⟩ := h p (List.mem_of_find?_eq_some hp) key hkey o (List.mem_of_find?_eq_some ho)
        exact withTypeOf_text hs
  refine Value.modifyAt_eq_self fun rs _ => ?_
  cases rs with
  | list rs =>
    refine congrArg Value.list ((List.map_congr_left fun r _ => ?_).trans (List.map_id _))
    refine (Value.modifyAt_eq_self fun table _ => hrefresh "input_tables" (by decide) _ _ table).trans ?_
    exact Value.modifyAt_eq_self fun table _ => hrefresh "output_tables" (by decide) _ _ table
  | _ => rfl

theorem relateAndBuild_columns {t t' : Session} (h : relateAndBuild t = .ok es t') (hl : t.settings.entry Setting.layers = .ok layers)
    (hf : FreshBase layers) :
    ∃ relations l g st b, buildRelations layers = .ok relations ∧
      layers.setEntry relationsKey (.list (relations.map Relation.toValue)) = .ok l ∧
      setGroups (t.settings.set Setting.layers l) { layers := l, nextId := t.nextId } = .ok () g ∧
      (∀ k, k ≠ Setting.layers → Settings.entry st k = t.settings.entry k) ∧
      buildConsumption { settings := st, layers := refreshGroups t.shownGroups g.layers } = .ok es b ∧
      (∀ p ∈ proceduresOf b.layers, HasColumns p.2.2) ∧
      t' = { t with settings := b.settings.set Setting.layers b.layers, nextId := g.nextId } := by
  obtain ⟨relations, l, g, st, b, hrel, hset, hg, hst, hb, rfl⟩ := relateAndBuild_ok h hl
  obtain ⟨-, -, hf1, hhas1, hpair⟩ := groupedFrom hf hrel hset hg t.shownGroups
  obtain ⟨hmarks, -⟩ := buildConsumption_built hb hf1.base hf1.records hhas1 hpair
  have hcolumns : ∀ p ∈ proceduresOf b.layers, HasColumns p.2.2 := by
    intro p hp
    obtain ⟨o, ho, hs⟩ := hmarks.procedure' ((mem_proceduresOf hmarks.base').1 hp)
    exact (buildConsumption_columns hb hf1 hhas1 hpair ho).sameBut hs (by decide)
  refine ⟨relations, l, g, st, b, hrel, hset, hg, hst, hb, hcolumns, ?_⟩
  rw [tracedTypes_eq hcolumns, relatedTypes_eq hcolumns]

theorem fillConsumption_trace {t s' : Session} {u : Unit} (h : fillConsumption t = .ok u s')
    (hl : t.settings.entry Setting.layers = .ok layers) (hf : FreshBase layers) : s'.trace = t.trace := by
  obtain ⟨es, t1, l1, final, hrun, -, -, rfl⟩ := fillConsumption_ok h
  obtain ⟨_, _, _, _, _, -, -, -, -, -, -, rfl⟩ := relateAndBuild_columns hrun hl hf
  rfl

end TraceArtifacts
