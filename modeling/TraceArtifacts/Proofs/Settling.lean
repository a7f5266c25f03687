import TraceArtifacts.Proofs.Columns

/-!
# Proofs: procedures that are settled

When all procedures have had their turns, each of them has been taken into an element, or it is no partition and waits for one
(`buildConsumption_settled`).
-/

namespace TraceArtifacts

variable {s s' : BuildState} {es : List Element} {taken xs : List ProcedureName} {relations : List Relation} {x y : ProcedureName}
  {layers : Value}

/-! ## What is settled after all turns -/

namespace MergeRules

variable (g : MergeRules)

theorem subset_turn (x : ProcedureName) (h : y ∈ taken) : y ∈ (g.turn taken x).2 := by
  unfold turn
  split_ifs <;> simp [h]

theorem subset_takenAfter (xs : List ProcedureName) (h : y ∈ taken) : y ∈ g.takenAfter taken xs := by
  induction xs generalizing taken with
  | nil => exact h
  | cons x xs ih => exact ih (g.subset_turn x h)

theorem turn_settles (taken : List ProcedureName) (x : ProcedureName) :
    x ∈ (g.turn taken x).2 ∨ g.isPartition x = false ∧ g.waits x = true := by
  unfold turn
  split_ifs with htaken hpart hread hwaits
  · exact .inl htaken
  · exact .inl (.head _)
  · exact .inl (.head _)
  · exact .inr ⟨Bool.eq_false_iff.2 hpart, hwaits⟩
  · exact .inl (.head _)

theorem takenAfter_settles (hx : x ∈ xs) (taken : List ProcedureName) :
    x ∈ g.takenAfter taken xs ∨ g.isPartition x = false ∧ g.waits x = true := by
  induction xs generalizing taken with
  | nil => simp at hx
  | cons y xs ih =>
    rcases List.mem_cons.1 hx with rfl | hx
    · exact (g.turn_settles taken x).imp_left (g.subset_takenAfter xs)
    · exact ih hx _

theorem plan_eq_nil (h : ∀ x ∈ xs, x ∈ taken ∨ g.isPartition x = false ∧ g.waits x = true) : g.plan taken xs = [] := by
  induction xs with
  | nil => rfl
  | cons x xs ih =>
    have hturn : g.turn taken x = ([], taken) := by
      unfold turn
      rcases h x (.head _) with hx | ⟨hpart, hwaits⟩
      · rw [if_pos hx]
      · simp [hpart, hwaits]
    rw [plan, hturn, ih fun y hy => h y (.tail _ hy)]
    rfl

theorem plan_ne_nil (h : ∀ y ∈ x :: xs, g.waits y = true → ∃ p ∈ x :: xs, g.isPartition p = true) : g.plan [] (x :: xs) ≠ [] := by
  by_cases hp : ∃ p ∈ x :: xs, g.isPartition p = true
  · obtain ⟨p, hp, hpart⟩ := hp
    obtain ⟨ys, hys, -⟩ := called_pos.1 (g.called_partition hp hpart)
    exact List.ne_nil_of_mem hys
  · have hpart : ¬ g.isPartition x = true := fun hx => hp ⟨x, .head _, hx⟩
    have hwaits : ¬ g.waits x = true := fun hx => hp (h x (.head _) hx)
    simp [plan, turn, hpart, hwaits]

end MergeRules

/-! ## Names of partitions -/

def NamedAs (o : Value) (name : String) : Prop :=
  ∃ category, o.entry "metadata" = .ok (.object [("procedure_name", .text name), ("algo_function_cat", .text category)])

theorem NamedAs.procedureName {o : Value} {name : String} (h : NamedAs o name) : procedureName o = .ok (.text name) := by
  obtain ⟨category, h⟩ := h
  rw [TraceArtifacts.procedureName, Value.has_of_entry h, h]
  rfl

theorem containsText_lowerText {name : String} (h : containsText name "partition" = true) :
    containsText (lowerText name) "partition" = true := by
  have hlower : (lowerText name).toList = Text.lower name.toList := String.toList_ofList
  have hsmall : "partition".toList.all (fun c => decide (c ≠ 'Σ' ∧ Text.lowerChar c = [c])) = true := by decide +kernel
  rw [containsText, hlower]
  exact Text.occurs_lowerFrom (fun c hc => of_decide_eq_true (List.all_eq_true.1 hsmall c hc)) [] h

theorem Relation.Joins.isPartition {r : Relation} (h : r.Joins layers x y)
    (hnamed : ∀ {x o}, procedureAt? layers x = some o → ∃ name, NamedAs o name) (hr : r.fromPartition = true) (relations : List Relation) :
    (mergeRules layers relations).isPartition x = true := by
  obtain ⟨o, ho, hmeta, -⟩ := h.writer
  obtain ⟨name, hname⟩ := hnamed ho
  have hcarried : carriedName layers x = name := by
    rw [carriedName, ho, Option.map_some, hname.procedureName]
  obtain ⟨category, hentry⟩ := hname
  rw [Relation.fromPartition, ok_unique hmeta hentry] at hr
  rw [mergeRules_isPartition, hcarried]
  exact containsText_lowerText hr

/-! ## Elements -/

def Settled (layers : Value) (settings : Settings) (relations : List Relation) : Prop :=
  ∀ x ∈ procedureNames layers, IsMarked layers x ∨ MergesPartitions settings ∧
    (mergeRules layers relations).isPartition x = false ∧ (mergeRules layers relations).waits x = true

theorem mergesNothing_of_not {st : Settings} (h : ¬ MergesPartitions st) : MergesNothing st := by
  intro m hm
  exact Bool.eq_false_iff.2 fun hsame => h ⟨m, hm, hsame⟩

theorem buildElements_marks {settings : Settings} (hm : MergesNothing settings) (ht : Turned layers settings taken s)
    (h : buildElements (.text x.1) (.text x.2) (.text storedLink) s = .ok es s') : Turned layers settings (x :: taken) s' := by
  obtain ⟨_, groups, m, -, -, hstrategy, ⟨hmarked, -, rfl⟩ | ⟨-, c, t, hc, he⟩⟩ := buildElements_cases h
  · refine ht.congr fun y => ?_
    rw [List.mem_cons, or_iff_right_of_imp]
    rintro rfl
    exact (ht.marked _).1 hmarked
  · rw [ht.settings _ (by decide)] at hstrategy
    rw [hm m hstrategy] at he
    obtain ⟨ht1, hby, -⟩ := ht.contribute hc
    exact (ht1.alone hby he).2

theorem buildConsumption_settled (h : buildConsumption s = .ok es s') (hf : FreshBase s.layers) (hrel : HasRelations s.layers relations)
    (hpair : Paired relations) : Settled s'.layers s.settings relations ∧ SameSettings s.settings s'.settings := by
  rw [buildConsumption_eq hf.base] at h
  obtain ⟨ess, t, hrun, h⟩ := run_bind_ok.1 h
  cases h
  have hstart := Turned.fresh hf s.settings
  by_cases hm : MergesPartitions s.settings
  · have hturned := (buildElements_planned hrel hpair hm hstart hrun).2
    refine ⟨fun x hx => ?_, hturned.settings⟩
    rw [mergeRules_alike hturned.alike (by decide), hturned.marked]
    rw [hturned.alike.names] at hx
    exact (MergeRules.takenAfter_settles _ hx []).imp_right fun h => ⟨hm, h⟩
  · have hnothing := mergesNothing_of_not hm
    have hrun := (mapM_run_ok (R := fun _ _ => True) (I := fun rest t => ∃ taken, Turned s.layers s.settings taken t ∧
        ∀ x ∈ procedureNames s.layers, x ∈ rest ∨ x ∈ taken)
      (fun x rest t es t' hI hx => by
        obtain ⟨taken, hturned, hall⟩ := hI
        refine ⟨⟨x :: taken, buildElements_marks hnothing hturned hx, fun y hy => ?_⟩, trivial⟩
        rcases hall y hy with hy | hy
        · rcases List.mem_cons.1 hy with rfl | hy
          · exact .inr (.head _)
          · exact .inl hy
        · exact .inr (.tail _ hy))
      ⟨[], hstart, fun x hx => .inl hx⟩ hrun).1
    obtain ⟨taken, hturned, hall⟩ := hrun
    refine ⟨fun x hx => ?_, hturned.settings⟩
    rw [hturned.alike.names] at hx
    exact .inl ((hturned.marked x).2 ((hall x hx).resolve_left List.not_mem_nil))

theorem buildConsumption_ne_nil (h : buildConsumption s = .ok es s') (hf : FreshBase s.layers)
    (hbuilt : buildRelations s.layers = .ok relations) (hrel : HasRelations s.layers relations)
    (hnamed : ∀ {x o}, procedureAt? s.layers x = some o → ∃ name, NamedAs o name) (hne : procedureNames s.layers ≠ []) : es ≠ [] := by
  rintro rfl
  obtain ⟨x, xs, hnames⟩ := List.exists_cons_of_ne_nil hne
  by_cases hm : MergesPartitions s.settings
  · have hplan := buildConsumption_planned h hf hrel (buildRelations_paired hf.base hbuilt) hm
    rw [List.forall₂_nil_right_iff, hnames] at hplan
    refine MergeRules.plan_ne_nil _ (fun y hy hwaits => ?_) hplan
    obtain ⟨r, hr, hpath⟩ := List.any_eq_true.1 hwaits
    obtain ⟨p, z, hj⟩ := buildRelations_grounded hf.base hbuilt hr
    obtain ⟨o, ho, -⟩ := hj.writer
    refine ⟨p, ?_, hj.isPartition hnamed (Bool.and_eq_true_iff.1 hpath).2 relations⟩
    rw [← hnames]
    exact (mem_procedureNames hf.base).2 ⟨o, ho⟩
  · have hsingle := (buildConsumption_single h hf.base hf.records (mergesNothing_of_not hm) hf.unmerged).1
    rw [List.forall₂_nil_right_iff, hnames] at hsingle
    cases hsingle

theorem buildConsumption_nil (h : buildConsumption s = .ok es s') (hb : IsBaseLayer s.layers) (hr : HasRecords s.layers)
    (hrel : HasRelations s.layers relations) (hpair : Paired relations) (hsettled : Settled s.layers s.settings relations) : es = [] := by
  classical
  rw [buildConsumption_eq hb] at h
  obtain ⟨ess, t, hrun, h⟩ := run_bind_ok.1 h
  cases h
  by_cases hm : MergesPartitions s.settings
  · have hstart : Turned s.layers s.settings ((procedureNames s.layers).filter (IsMarked s.layers)) s := by
      refine ⟨.refl _ hb hr, .refl _, fun y => ?_⟩
      rw [List.mem_filter, decide_eq_true_iff, iff_and_self]
      rintro ⟨o, -, ho, -⟩
      exact (mem_procedureNames hb).2 ⟨o, ho⟩
    have hplan := (buildElements_planned hrel hpair hm hstart hrun).1
    rwa [MergeRules.plan_eq_nil, List.forall₂_nil_left_iff] at hplan
    intro x hx
    refine (hsettled x hx).imp (fun hmarked => ?_) And.right
    exact List.mem_filter.2 ⟨hx, decide_eq_true hmarked⟩
  · have hall := (mapM_run_ok (I := fun rest t => t = s ∧ ∀ x ∈ rest, x ∈ procedureNames s.layers)
      (R := fun _ (es : List Element) => es = [])
      (fun x rest t es t' hI hx => by
        obtain ⟨rfl, hrest⟩ := hI
        have hmarked := (hsettled x (hrest x (.head _))).resolve_right fun h => hm h.1
        obtain ⟨_, groups, m, -, -, -, ⟨-, rfl, rfl⟩ | ⟨hno, -⟩⟩ := buildElements_cases hx
        · exact ⟨⟨rfl, fun y hy => hrest y (.tail _ hy)⟩, rfl⟩
        · exact absurd hmarked hno)
      ⟨rfl, fun x hx => hx⟩ hrun).2
    refine List.flatten_eq_nil_iff.2 fun es hes => ?_
    obtain ⟨x, -, hx⟩ := forall₂_mem_right hall hes
    exact hx

end TraceArtifacts
