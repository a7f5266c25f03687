import TraceArtifacts.Proofs.Processing

/-!
# Proofs: how elements come about

A procedure makes an element alone, or a partition is merged with one of the procedures that read it; then the inputs of that reader
are linked by what is passed on, and all others by what is kept (`buildConsumption_built`).
-/

namespace TraceArtifacts

variable {s s' : BuildState} {c p : Contribution} {e : Element} {es : List Element} {relations : List Relation} {x y : ProcedureName}
  {u : Unit} {groups layers linkType o : Value}

/-! ## Elements and their calls -/

def ContributedBy (layers : Value) (y : ProcedureName) (c : Contribution) : Prop :=
  ∃ l o linkType, Alike [mergedKey] layers l ∧ procedureAt? l y = some o ∧ Contributes l linkType y o c

/-- The call of an element for a procedure: the first one is for the procedure that the element grew from, and the last one
of a merged element is for a procedure that reads what that one writes. -/
inductive CallFor (relations : List Relation) (e : Element) : ProcedureName → CallItem → Prop
  | own {c : CallItem} (h : e.body.head? = some (.call c)) : CallFor relations e e.origin c
  | reader {c : CallItem} {y : ProcedureName} {r : Relation} (hm : e.single = false)
      (h : e.body.getLast? = some (.call c)) (hr : r ∈ relations)
      (hfrom : r.fromPath = procedurePath e.origin) (hto : r.toPath = procedurePath y) :
      CallFor relations e y c

def CallsMade (layers : Value) (relations : List Relation) (e : Element) : Prop :=
  ∀ c, .call c ∈ e.body → ∃ y d, CallFor relations e y c ∧ ContributedBy layers y d ∧ c = d.call

def ContributedAs (layers linkType : Value) (y : ProcedureName) (c : Contribution) : Prop :=
  ∃ l o, Alike [mergedKey] layers l ∧ procedureAt? l y = some o ∧ Contributes l linkType y o c

theorem ContributedAs.contributedBy (h : ContributedAs layers linkType y c) : ContributedBy layers y c := by
  obtain ⟨l, o, hl, ho, hc⟩ := h
  exact ⟨l, o, linkType, hl, ho, hc⟩

def mergedOf (x : ProcedureName) (name childName : String) (groups : Value) (p c : Contribution) :
    Element where
  name := "cons_" ++ name ++ "_" ++ childName
  origin := x
  single := false
  inputs := p.inputs
  body := .call p.call :: c.inputs.map .input ++ [.call c.call]
  outputs := c.outputs
  groups := groups

/-- How an element comes about. -/
inductive Built (layers : Value) (relations : List Relation) : Element → Prop
  | alone {x : ProcedureName} {n : String} {groups : Value} {c : Contribution}
      (hc : ContributedAs layers (.text storedLink) x c) (hn : c.procedure = .text n) :
      Built layers relations (elementOf x n groups c)
  | merged {x y : ProcedureName} {n m : String} {groups : Value} {p c : Contribution} {r : Relation}
      (hp : ContributedAs layers (.text storedLink) x p)
      (hc : ContributedAs layers (.text passedLink) y c) (hn : p.procedure = .text n)
      (hm : c.procedure = .text m) (hpart : containsText (lowerText n) "partition" = true)
      (hr : r ∈ relations) (hfrom : r.fromPath = procedurePath x) (hto : r.toPath = procedurePath y) :
      Built layers relations (mergedOf x n m groups p c)

/-! ## Building -/

theorem contributedAs_of_run (h : contributionOf (addressOf x) linkType s = .ok c s') (hl : Alike [mergedKey] layers s.layers) :
    Alike [mergedKey] layers s'.layers ∧ ContributedAs layers linkType x c := by
  obtain ⟨hs, -, o, ho, hc⟩ := contributionOf_ok h
  rw [hs]
  exact ⟨hl, s.layers, o, hl, ho, hc⟩

theorem markMerged_alike (h : markMerged (addressOf x) s = .ok u s') (hl : Alike [mergedKey] layers s.layers) :
    Alike [mergedKey] layers s'.layers := by
  obtain ⟨o, o', ho, hs, rfl⟩ := markMerged_ok h
  exact hl.trans (.put hl.base' hl.hasRecords ho hs)

theorem mergedElement_ok (h : mergedElement (.text x.1) (.text x.2) groups p c = .ok e) :
    ∃ n m, p.procedure = .text n ∧ c.procedure = .text m ∧ e = mergedOf x n m groups p c := by
  simp only [mergedElement, Value.asText, bind_ok, pure_ok, Except.ok.injEq, exists_eq_left'] at h
  obtain ⟨m, hm, n, hn, rfl⟩ := h
  exact ⟨n, m, asText_ok.1 hn, asText_ok.1 hm, rfl⟩

theorem mergeChild_built {n : String} (hp : ContributedAs layers (.text storedLink) x p) (hn : p.procedure = .text n)
    (hpart : containsText (lowerText n) "partition" = true) {k : Link} (hk : k.path = .text (procedurePath y)) {r : Relation}
    (hr : r ∈ relations) (hfrom : r.fromPath = procedurePath x) (hto : r.toPath = procedurePath y)
    (h : mergeChild (.text x.1) (.text x.2) groups p k s = .ok e s') (hl : Alike [mergedKey] layers s.layers) :
    Alike [mergedKey] layers s'.layers ∧ Built layers relations e := by
  simp only [mergeChild, hk, run_parts, run_pure_ok, ofPath_procedurePath] at h
  obtain ⟨_, ⟨-, rfl⟩, c, t, hc, e', he, _, t', ht', rfl, rfl⟩ := h
  obtain ⟨hlt, hcon⟩ := contributedAs_of_run hc hl
  refine ⟨markMerged_alike ht' hlt, ?_⟩
  obtain ⟨n', m, hn', hm, rfl⟩ := mergedElement_ok he
  obtain rfl := Value.text.inj (hn.symm.trans hn')
  exact .merged hp hcon hn hm hpart hr hfrom hto

theorem aloneElements_built (hc : ContributedAs layers (.text storedLink) x c)
    (h : aloneElements (.text x.1) (.text x.2) groups c s = .ok es s') (hl : Alike [mergedKey] layers s.layers) :
    Alike [mergedKey] layers s'.layers ∧ ∀ e ∈ es, Built layers relations e := by
  obtain ⟨n, o, o', hn, rfl, ho, hs, rfl⟩ := aloneElements_ok h
  refine ⟨hl.trans (.put hl.base' hl.hasRecords ho hs), fun e he => ?_⟩
  obtain rfl := List.mem_singleton.1 he
  exact .alone hc hn

theorem partitionElements_built {n : String} (hc : ContributedAs layers (.text storedLink) x c) (hn : c.procedure = .text n)
    (hpart : containsText (lowerText n) "partition" = true) {children : List Link}
    (hk : ∀ k ∈ children, ∃ y r, k.path = .text (procedurePath y) ∧ r ∈ relations ∧
      r.fromPath = procedurePath x ∧ r.toPath = procedurePath y)
    (h : partitionElements (.text x.1) (.text x.2) groups c children s = .ok es s') (hl : Alike [mergedKey] layers s.layers) :
    Alike [mergedKey] layers s'.layers ∧ ∀ e ∈ es, Built layers relations e := by
  simp only [partitionElements, run_bind_ok, run_pure_ok] at h
  obtain ⟨es', t, hes, _, t', ht', rfl, rfl⟩ := h
  have hrun := mapM_run_ok (I := fun rest (t : BuildState) => Alike [mergedKey] layers t.layers ∧ ∀ k ∈ rest, k ∈ children)
    (R := fun _ e => Built layers relations e)
    (fun k rest t e t' hI hke => by
      obtain ⟨y, r, hpath, hr, hfrom, hto⟩ := hk k (hI.2 k (.head _))
      obtain ⟨hl', he⟩ := mergeChild_built hc hn hpart hpath hr hfrom hto hke hI.1
      exact ⟨⟨hl', fun k' hk' => hI.2 k' (.tail _ hk')⟩, he⟩)
    ⟨hl, fun k hk => hk⟩ hes
  refine ⟨markMerged_alike ht' hrun.1.1, fun e he => ?_⟩
  obtain ⟨k, -, he⟩ := forall₂_mem_right hrun.2 he
  exact he

theorem outgoing_links {l : Value} (hrel : HasRelations l relations) (hpair : Paired relations) {ks : List Link}
    (h : links l .outgoing (.text x.1) (.text x.2) = .ok ks) {k : Link} (hk : k ∈ ks) :
    ∃ y r, k.path = .text (procedurePath y) ∧ r ∈ relations ∧ r.fromPath = procedurePath x ∧ r.toPath = procedurePath y := by
  obtain ⟨r, hr, hkr⟩ := forall₂_mem_right (links_ok hrel h) hk
  obtain ⟨hr, hnear⟩ := List.mem_filter.1 hr
  obtain ⟨y, hy⟩ := hpair r hr .outgoing
  exact ⟨y, r, by rw [(linkOf_ok hkr).path, hy], hr, beq_iff_eq.1 hnear, hy⟩

theorem buildElements_built (hrel : HasRelations layers relations) (hpair : Paired relations)
    (h : buildElements (.text x.1) (.text x.2) (.text storedLink) s = .ok es s') (hl : Alike [mergedKey] layers s.layers) :
    Alike [mergedKey] layers s'.layers ∧ ∀ e ∈ es, Built layers relations e := by
  obtain ⟨_, groups, m, -, -, -, ⟨-, rfl, rfl⟩ | ⟨-, c, t, hc, h⟩⟩ := buildElements_cases h
  · exact ⟨hl, fun e he => by simp at he⟩
  obtain ⟨hlt, hcon⟩ := contributedAs_of_run hc hl
  split at h
  · rcases mergedElements_cases h with ⟨rfl, rfl⟩ | h | ⟨n, children, hn, hpart, hchildren, h⟩
    · exact ⟨hlt, fun e he => by simp at he⟩
    · exact aloneElements_built hcon h hlt
    · exact partitionElements_built hcon hn hpart (fun k hk => outgoing_links (hl.relations.trans hrel) hpair hchildren hk) h hlt
  · exact aloneElements_built hcon h hlt

theorem buildConsumption_built (h : buildConsumption s = .ok es s') (hb : IsBaseLayer s.layers) (hr : HasRecords s.layers)
    (hrel : HasRelations s.layers relations) (hpair : Paired relations) :
    Alike [mergedKey] s.layers s'.layers ∧ ∀ e ∈ es, Built s.layers relations e := by
  rw [buildConsumption_eq hb] at h
  obtain ⟨ess, t, hrun, h⟩ := run_bind_ok.1 h
  cases h
  have hrun := mapM_run_ok (I := fun _ (t : BuildState) => Alike [mergedKey] s.layers t.layers)
    (R := fun _ es => ∀ e ∈ es, Built s.layers relations e)
    (fun x _ t es t' hI hx => buildElements_built hrel hpair hx hI) (.refl _ hb hr) hrun
  refine ⟨hrun.1, fun e he => ?_⟩
  obtain ⟨es, hes, he⟩ := List.mem_flatten.1 he
  obtain ⟨x, -, hx⟩ := forall₂_mem_right hrun.2 hes
  exact hx e he

theorem Built.callsMade (h : Built layers relations e) : CallsMade layers relations e := by
  intro d hd
  cases h with
  | @alone x n groups c hc hn =>
    obtain rfl : d = c.call := by simpa [elementOf] using hd
    exact ⟨x, c, .own rfl, hc.contributedBy, rfl⟩
  | @merged x y n m groups p c r hp hc hn hm hpart hr hfrom hto =>
    have hcalls : d = p.call ∨ d = c.call := by simpa [mergedOf] using hd
    rcases hcalls with rfl | rfl
    · exact ⟨x, p, .own rfl, hp.contributedBy, rfl⟩
    · exact ⟨y, c, .reader rfl List.getLast?_concat hr hfrom hto, hc.contributedBy, rfl⟩

/-! ## Processed traces -/

/-- What a trace is processed to: the elements are built from a base layer of stored procedures with relations and groups, and
listed in layers with the same procedures, but for the marks on them. -/
structure Processed (P : BaseParts → Prop) (s s' : Session) (grouped final : Value)
    (relations : List Relation) (elements : List Element) : Prop where
  layers : s'.settings.entry Setting.layers = .ok final
  fresh : FreshBase grouped
  stored : ∀ {x o}, procedureAt? grouped x = some o → ∃ o', Stored P o' ∧ o'.SameBut ["groups"] o
  related : buildRelations grouped = .ok relations
  noted : HasRelations grouped relations
  run : ∃ settings b, (∀ k, k ≠ Setting.layers → Settings.entry settings k = s.settings.entry k) ∧
    buildConsumption { settings, layers := grouped } = .ok elements b ∧
    final.at? [.key baseKey] = b.layers.at? [.key baseKey] ∧
    ∀ k, k ≠ Setting.layers → s'.settings.entry k = b.settings.entry k
  listed : final.entry consumptionKey = .ok (.list (elements.map Element.toValue))
  made : ∃ base settings, Made base grouped final relations settings elements ∧ ∀ {x o}, procedureAt? base x = some o → Stored P o

theorem processTrace_processed {T : Value → Prop} {P : BaseParts → Prop} (hT : StoresAs T P) {raiseOnError logStatements own : Bool}
    {s s' : Session} (h : processTrace raiseOnError logStatements own s = .ok u s')
    (hl : s.settings.entry Setting.layers = .ok (.object [])) (ht : T s.trace) :
    (s.trace.isTruthy = false ∧ s' = s) ∨ ∃ grouped final relations elements, Processed P s s' grouped final relations elements := by
  refine (processTrace_fresh hT h hl ht).imp_right ?_
  rintro ⟨t, layers, hst, hlayers, hf, hstored, hfill⟩
  obtain ⟨grouped, final, relations, settings, elements, hm, hsettings, hfinal, hkept⟩ := fillConsumption_kept hfill hlayers hf
  obtain ⟨b, hb, hbase⟩ := hm.built
  refine ⟨grouped, final, relations, elements, hfinal, hm.fresh hf, fun ho => ?_,
    hm.relations_grouped hf, hm.noted, ⟨settings, b, fun k hk => ?_, hb, hbase, hkept b hb⟩, hm.final,
    ⟨layers, settings, hm, hstored⟩⟩
  · obtain ⟨o', ho', hs⟩ := hm.procedure ho
    exact ⟨o', hstored ho', hs⟩
  · rw [hsettings k hk, hst k hk]

namespace Processed

variable {P : BaseParts → Prop} {s s' : Session} {grouped final : Value} {elements : List Element}
  (hp : Processed P s s' grouped final relations elements)
include hp

theorem built : ∀ e ∈ elements, Built grouped relations e := by
  obtain ⟨settings, b, -, hb, -⟩ := hp.run
  exact (buildConsumption_built hb hp.fresh.base hp.fresh.records hp.noted (buildRelations_paired hp.fresh.base hp.related)).2

theorem alike : ∃ l, Alike [mergedKey] grouped l ∧ final.at? [.key baseKey] = l.at? [.key baseKey] := by
  obtain ⟨settings, b, -, hb, hbase, -⟩ := hp.run
  exact ⟨b.layers, (buildConsumption_built hb hp.fresh.base hp.fresh.records hp.noted
    (buildRelations_paired hp.fresh.base hp.related)).1, hbase⟩

theorem base : IsBaseLayer final := by
  obtain ⟨l, hl, hbase⟩ := hp.alike
  exact hl.base'.congr hbase

theorem records : HasRecords final := by
  obtain ⟨l, hl, hbase⟩ := hp.alike
  intro x o ho
  rw [procedureAt?_congr hbase] at ho
  exact hl.hasRecords ho

theorem relations_final : buildRelations final = .ok relations := by
  obtain ⟨l, hl, hbase⟩ := hp.alike
  rw [buildRelations_congr hl.base' hbase, hl.buildRelations_eq (by decide), hp.related]

theorem names : procedureNames final = procedureNames grouped := by
  obtain ⟨l, hl, hbase⟩ := hp.alike
  exact (procedureNames_congr hbase).trans hl.names

theorem procedure (ho : procedureAt? grouped x = some o) : ∃ o', procedureAt? final x = some o' ∧ o.SameBut [mergedKey] o' := by
  obtain ⟨l, hl, hbase⟩ := hp.alike
  obtain ⟨o', ho', hs⟩ := hl.procedure ho
  exact ⟨o', by rw [procedureAt?_congr hbase]; exact ho', hs⟩

theorem procedure' (ho : procedureAt? final x = some o) : ∃ o', procedureAt? grouped x = some o' ∧ o'.SameBut [mergedKey] o := by
  obtain ⟨l, hl, hbase⟩ := hp.alike
  rw [procedureAt?_congr hbase] at ho
  exact hl.procedure' ho

end Processed

theorem processTrace_stored {T : Value → Prop} {P : BaseParts → Prop} (hT : StoresAs T P) {raiseOnError logStatements own : Bool}
    {s s' : Session} (h : processTrace raiseOnError logStatements own s = .ok u s')
    (hl : s.settings.entry Setting.layers = .ok (.object [])) (ht : T s.trace) :
    (s.trace.isTruthy = false ∧ s' = s) ∨ ∃ layers, s'.settings.entry Setting.layers = .ok layers ∧ IsBaseLayer layers ∧ HasRecords layers ∧
      ∀ {x o}, procedureAt? layers x = some o → ∃ o', Stored P o' ∧ o'.SameBut ["groups", mergedKey] o := by
  refine (processTrace_processed hT h hl ht).imp_right ?_
  rintro ⟨grouped, final, relations, elements, hp⟩
  refine ⟨final, hp.layers, hp.base, hp.records, fun ho => ?_⟩
  obtain ⟨o1, ho1, hs1⟩ := hp.procedure' ho
  obtain ⟨o2, ho2, hs2⟩ := hp.stored ho1
  exact ⟨o2, ho2, (hs2.mono (by simp)).trans (hs1.mono (by simp))⟩

end TraceArtifacts
