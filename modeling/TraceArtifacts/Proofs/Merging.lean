import TraceArtifacts.Proofs.Calls
import Mathlib.Algebra.GroupWithZero.Nat

/-!
# Proofs: how often merged procedures are called

Where partitions are merged, procedures have their turns in the order of the base layer.
-/

namespace TraceArtifacts

variable {c p : Contribution} {es : List Element} {ks : List Link} {taken xs : List ProcedureName} {keys : List String}
  {x y : ProcedureName} {groups l layers linkType : Value}

/-! ## Turns -/

structure MergeRules where
  isPartition : ProcedureName → Bool
  waits : ProcedureName → Bool
  readers : ProcedureName → List ProcedureName

namespace MergeRules

variable (g : MergeRules)

/-- The turn of a procedure, after some have been taken in: the procedures that each of its elements calls, and all that
have been taken in then. -/
def turn (taken : List ProcedureName) (x : ProcedureName) : List (List ProcedureName) × List ProcedureName :=
  if x ∈ taken then ([], taken)
  else if g.isPartition x then
    if (g.readers x).isEmpty then ([[x]], x :: taken)
    else ((g.readers x).map fun y => [x, y], x :: (g.readers x ++ taken))
  else if g.waits x then ([], taken)
  else ([[x]], x :: taken)

def plan : List ProcedureName → List ProcedureName → List (List ProcedureName)
  | _, [] => []
  | taken, x :: rest => (g.turn taken x).1 ++ plan (g.turn taken x).2 rest

def takenAfter : List ProcedureName → List ProcedureName → List ProcedureName
  | taken, [] => taken
  | taken, x :: rest => takenAfter (g.turn taken x).2 rest

def mergers : List ProcedureName → List ProcedureName → List ProcedureName
  | _, [] => []
  | taken, x :: rest =>
      if x ∉ taken ∧ g.isPartition x = true then x :: mergers (g.turn taken x).2 rest
      else mergers (g.turn taken x).2 rest

def called (x : ProcedureName) (calls : List (List ProcedureName)) : Nat := calls.countP fun ys => decide (x ∈ ys)

def readings (y : ProcedureName) (xs : List ProcedureName) : Nat := (xs.map fun p => (g.readers p).count y).sum

theorem plan_append (taken xs ys : List ProcedureName) :
    g.plan taken (xs ++ ys) = g.plan taken xs ++ g.plan (g.takenAfter taken xs) ys := by
  induction xs generalizing taken with
  | nil => rfl
  | cons x xs ih => simp only [List.cons_append, plan, takenAfter, ih, List.append_assoc]

theorem mergers_append (taken xs ys : List ProcedureName) :
    g.mergers taken (xs ++ ys) = g.mergers taken xs ++ g.mergers (g.takenAfter taken xs) ys := by
  induction xs generalizing taken with
  | nil => rfl
  | cons x xs ih =>
    simp only [List.cons_append, mergers, takenAfter, ih]
    split <;> rfl

theorem called_append (x : ProcedureName) (calls calls' : List (List ProcedureName)) :
    called x (calls ++ calls') = called x calls + called x calls' :=
  List.countP_append

theorem called_pos {calls : List (List ProcedureName)} : 0 < called x calls ↔ ∃ ys ∈ calls, x ∈ ys := by
  simp [called, List.countP_pos_iff]

/-! ### Partitions -/

theorem mem_turn (h : y ∈ (g.turn taken x).2) : y ∈ taken ∨ ∃ ys ∈ (g.turn taken x).1, y ∈ ys := by
  unfold turn at h ⊢
  split_ifs at h ⊢ with hx hp hr hw
  · exact .inl h
  · rcases List.mem_cons.1 h with rfl | h
    · exact .inr ⟨[y], by simp⟩
    · exact .inl h
  · rcases List.mem_cons.1 h with rfl | h
    · obtain ⟨z, hz⟩ := List.exists_mem_of_ne_nil _ (mt List.isEmpty_iff.2 hr)
      exact .inr ⟨[y, z], List.mem_map.2 ⟨z, hz, rfl⟩, by simp⟩
    · rcases List.mem_append.1 h with h | h
      · exact .inr ⟨[x, y], List.mem_map.2 ⟨y, h, rfl⟩, by simp⟩
      · exact .inl h
  · exact .inl h
  · rcases List.mem_cons.1 h with rfl | h
    · exact .inr ⟨[y], by simp⟩
    · exact .inl h

theorem mem_takenAfter (h : y ∈ g.takenAfter taken xs) : y ∈ taken ∨ ∃ ys ∈ g.plan taken xs, y ∈ ys := by
  induction xs generalizing taken with
  | nil => exact .inl h
  | cons x xs ih =>
    rw [takenAfter] at h
    rcases ih h with h | ⟨ys, hys, hy⟩
    · rcases g.mem_turn h with h | ⟨ys, hys, hy⟩
      · exact .inl h
      · exact .inr ⟨ys, List.mem_append_left _ hys, hy⟩
    · exact .inr ⟨ys, List.mem_append_right _ hys, hy⟩

theorem partition_taken (taken : List ProcedureName) (hx : g.isPartition x = true) : x ∈ (g.turn taken x).2 := by
  unfold turn
  split_ifs with h
  · exact h
  · exact List.mem_cons_self ..
  · exact List.mem_cons_self ..

theorem called_partition (hx : x ∈ xs) (hp : g.isPartition x = true) : 0 < called x (g.plan [] xs) := by
  obtain ⟨before, after, rfl⟩ := List.append_of_mem hx
  have htaken : x ∈ g.takenAfter [] (before ++ [x]) := by
    have happ : ∀ taken ys, g.takenAfter taken (ys ++ [x]) = (g.turn (g.takenAfter taken ys) x).2 := by
      intro taken ys
      induction ys generalizing taken with
      | nil => rfl
      | cons y ys ih => exact ih _
    rw [happ]
    exact g.partition_taken _ hp
  rcases g.mem_takenAfter htaken with h | h
  · simp at h
  · rw [← List.singleton_append, ← List.append_assoc, g.plan_append, called_append]
    exact Nat.lt_of_lt_of_le (called_pos.2 h) (Nat.le_add_right ..)

/-! ### Other procedures -/

theorem mem_turn_iff (hxy : y ≠ x) : y ∈ (g.turn taken x).2 ↔ y ∈ taken ∨ (x ∉ taken ∧ g.isPartition x = true) ∧ y ∈ g.readers x := by
  unfold turn
  split_ifs with hx hp hr hw
  · simp [hx]
  · simp [hxy, List.isEmpty_iff.1 hr]
  · simp [hxy, hx, hp, or_comm]
  · simp [hp]
  · simp [hxy, hp]

theorem mem_takenAfter_iff (hxs : y ∉ xs) : y ∈ g.takenAfter taken xs ↔ y ∈ taken ∨ ∃ p ∈ g.mergers taken xs, y ∈ g.readers p := by
  induction xs generalizing taken with
  | nil => simp [takenAfter, mergers]
  | cons x xs ih =>
    obtain ⟨hyx, hxs⟩ := not_or.1 (mt List.mem_cons.2 hxs)
    rw [takenAfter, ih hxs, g.mem_turn_iff hyx, mergers]
    split_ifs with h
    · simp [h, or_assoc]
    · simp [h]

theorem pair_mem_plan {p : ProcedureName} (hp : p ∈ g.mergers taken xs) (hy : y ∈ g.readers p) : [p, y] ∈ g.plan taken xs := by
  induction xs generalizing taken with
  | nil => simp [mergers] at hp
  | cons x xs ih =>
    rw [mergers] at hp
    rw [plan, List.mem_append]
    split_ifs at hp with hx
    · rcases List.mem_cons.1 hp with rfl | hp
      · have hread : ¬(g.readers p).isEmpty = true := fun h => by
          rw [List.isEmpty_iff.1 h] at hy
          simp at hy
        rw [turn, if_neg hx.1, if_pos hx.2, if_neg hread]
        exact .inl (List.mem_map.2 ⟨y, hy, rfl⟩)
      · exact .inr (ih hp)
    · exact .inr (ih hp)

theorem exists_pair_mem_plan (hnd : xs.Nodup) {p : ProcedureName} (hp : p ∈ xs) (hpart : g.isPartition p = true)
    (hread : g.readers p ≠ []) : ∃ q y, [q, y] ∈ g.plan [] xs := by
  obtain ⟨before, after, rfl⟩ := List.append_of_mem hp
  have hbefore : p ∉ before := fun h =>
    (List.nodup_append.1 hnd).2.2 p h p (.head _) rfl
  by_cases htaken : p ∈ g.takenAfter [] before
  · rcases (g.mem_takenAfter_iff hbefore).1 htaken with h | ⟨q, hq, hpq⟩
    · simp at h
    · refine ⟨q, p, ?_⟩
      rw [plan_append]
      exact List.mem_append_left _ (g.pair_mem_plan hq hpq)
  · obtain ⟨y, hy⟩ := List.exists_mem_of_ne_nil _ hread
    refine ⟨p, y, g.pair_mem_plan ?_ hy⟩
    rw [mergers_append, mergers, if_pos ⟨htaken, hpart⟩]
    exact List.mem_append_right _ (.head _)

section Reader

variable {g} (hy : g.isPartition y = false)
include hy

theorem called_turn (taken : List ProcedureName) (x : ProcedureName) : called y (g.turn taken x).1 =
      (if x ∉ taken ∧ g.isPartition x = true then (g.readers x).count y else 0) +
        if x = y ∧ y ∉ taken ∧ g.waits y = false then 1 else 0 := by
  unfold turn
  by_cases htaken : x ∈ taken
  · have hown : ¬(x = y ∧ y ∉ taken ∧ g.waits y = false) := by
      rintro ⟨rfl, h, -⟩
      exact h htaken
    simp [called, htaken, hown]
  by_cases hpart : g.isPartition x = true
  · have hxy : x ≠ y := by
      rintro rfl
      simp [hpart] at hy
    have hown : ¬(x = y ∧ y ∉ taken ∧ g.waits y = false) := fun h => hxy h.1
    have hmerger : x ∉ taken ∧ g.isPartition x = true := ⟨htaken, hpart⟩
    rw [if_neg htaken, if_pos hpart, if_pos hmerger, if_neg hown, Nat.add_zero]
    by_cases hempty : (g.readers x).isEmpty = true
    · simp [called, List.isEmpty_iff.1 hempty, Ne.symm hxy]
    · rw [if_neg hempty]
      simp only [called, List.countP_map, List.count]
      refine List.countP_congr fun z _ => ?_
      simp only [Function.comp, List.mem_pair, Ne.symm hxy, false_or, decide_eq_true_eq, beq_iff_eq]
      exact eq_comm
  · have hmerger : ¬(x ∉ taken ∧ g.isPartition x = true) := fun h => hpart h.2
    rw [if_neg htaken, if_neg hpart, if_neg hmerger, Nat.zero_add]
    by_cases hxy : x = y
    · subst hxy
      by_cases hwait : g.waits x = true <;> simp [called, hwait, htaken]
    · by_cases hwait : g.waits x = true <;> simp [called, hwait, hxy, Ne.symm hxy]

theorem called_plan_of_not_mem (hxs : y ∉ xs) : called y (g.plan taken xs) = g.readings y (g.mergers taken xs) := by
  induction xs generalizing taken with
  | nil => rfl
  | cons x xs ih =>
    obtain ⟨hyx, hxs⟩ := not_or.1 (mt List.mem_cons.2 hxs)
    have hown : ¬(x = y ∧ y ∉ taken ∧ g.waits y = false) := fun h => hyx h.1.symm
    rw [plan, called_append, called_turn hy, if_neg hown, ih hxs, mergers, Nat.add_zero]
    split_ifs <;> simp [readings]

theorem called_plan {before after : List ProcedureName} (hnd : (before ++ y :: after).Nodup) : called y (g.plan [] (before ++ y :: after)) =
      g.readings y (g.mergers [] (before ++ y :: after)) +
        if g.waits y = true ∨ ∃ p ∈ g.mergers [] before, y ∈ g.readers p then 0 else 1 := by
  have hbefore : y ∉ before := fun h =>
    (List.nodup_append.1 hnd).2.2 y h y (.head _) rfl
  have hafter : y ∉ after := (List.nodup_cons.1 (List.nodup_append.1 hnd).2.1).1
  have hmergers : g.mergers [] (before ++ y :: after) = g.mergers [] before ++ g.mergers (g.turn (g.takenAfter [] before) y).2 after := by
    rw [mergers_append, mergers, if_neg (by simp [hy])]
  have htaken : y ∈ g.takenAfter [] before ↔ ∃ p ∈ g.mergers [] before, y ∈ g.readers p := by
    rw [g.mem_takenAfter_iff hbefore]
    simp
  rw [plan_append, called_append, called_plan_of_not_mem hy hbefore, plan, called_append,
    called_turn hy, called_plan_of_not_mem hy hafter, hmergers, if_neg (by simp [hy])]
  simp only [readings, List.map_append, List.sum_append, Nat.zero_add, true_and, htaken]
  split_ifs with h1 h2 h2
  · rcases h2 with hw | hp
    · simp [h1.2] at hw
    · exact absurd hp h1.1
  · omega
  · omega
  · refine absurd ⟨fun hp => h2 (.inr hp), ?_⟩ h1
    exact Bool.eq_false_iff.2 fun hw => h2 (.inl hw)

end Reader

/-! ### Partitions that read no partition -/

theorem mergers_eq_filter (hnd : xs.Nodup) (htaken : ∀ x ∈ xs, g.isPartition x = true → x ∉ taken)
    (hread : ∀ p ∈ xs, g.isPartition p = true → ∀ q ∈ g.readers p, g.isPartition q = false) :
    g.mergers taken xs = xs.filter g.isPartition := by
  induction xs generalizing taken with
  | nil => rfl
  | cons x xs ih =>
    have hrest : g.mergers (g.turn taken x).2 xs = xs.filter g.isPartition := by
      refine ih (List.nodup_cons.1 hnd).2 (fun z hz hp hmem => ?_) fun p hp => hread p (.tail _ hp)
      have hne : z ≠ x := fun e => (List.nodup_cons.1 hnd).1 (e ▸ hz)
      rcases (g.mem_turn_iff hne).1 hmem with h | ⟨hx, hr⟩
      · exact htaken z (.tail _ hz) hp h
      · simp [hread x (.head _) hx.2 z hr] at hp
    rw [mergers, hrest]
    by_cases hp : g.isPartition x = true
    · rw [if_pos ⟨htaken x (.head _) hp, hp⟩, List.filter_cons_of_pos hp]
    · rw [if_neg (fun h => hp h.2), List.filter_cons_of_neg hp]

theorem called_once (hnd : xs.Nodup) (hread : ∀ p ∈ xs, g.isPartition p = true → ∀ q ∈ g.readers p, g.isPartition q = false)
    (hmem : y ∈ xs) (hy : g.isPartition y = false) (hone : g.readings y (xs.filter g.isPartition) ≤ 1)
    (hwaits : g.waits y = true ↔ 0 < g.readings y (xs.filter g.isPartition)) : called y (g.plan [] xs) = 1 := by
  obtain ⟨before, after, rfl⟩ := List.append_of_mem hmem
  have hall := g.mergers_eq_filter hnd (fun _ _ _ => List.not_mem_nil) hread
  rw [called_plan hy hnd, hall]
  by_cases hw : g.waits y = true
  · rw [if_pos (.inl hw)]
    have := hwaits.1 hw
    omega
  · have hzero : g.readings y ((before ++ y :: after).filter g.isPartition) = 0 := by
      have := mt hwaits.2 hw
      omega
    have hnone : ¬∃ p ∈ g.mergers [] before, y ∈ g.readers p := by
      rintro ⟨p, hp, hyp⟩
      have hsub : p ∈ (before ++ y :: after).filter g.isPartition := by
        rw [← hall, g.mergers_append]
        exact List.mem_append_left _ hp
      have hcount := List.sum_eq_zero_iff_forall_eq_nat.1 hzero _ (List.mem_map_of_mem hsub)
      exact List.count_eq_zero.1 hcount hyp
    rw [hzero, if_neg (by simp [hw, hnone])]

end MergeRules

/-! ## The rules of a base layer -/

def carriedName (layers : Value) (x : ProcedureName) : String :=
  match (procedureAt? layers x).map procedureName with
  | some (.ok (.text n)) => n
  | _ => ""

def Relation.fromPartition (r : Relation) : Bool :=
  ((r.fromMetadata.get "procedure_name").has "partition").toOption.getD false

def mergeRules (layers : Value) (relations : List Relation) : MergeRules where
  isPartition x := containsText (lowerText (carriedName layers x)) "partition"
  waits x := relations.any fun r => r.toPath == procedurePath x && r.fromPartition
  readers x := (relations.filter fun r => r.fromPath == procedurePath x).map Relation.target

theorem mergeRules_isPartition (layers : Value) (relations : List Relation) (x : ProcedureName) :
    (mergeRules layers relations).isPartition x = containsText (lowerText (carriedName layers x)) "partition" := by
  rw [mergeRules]

def MergesPartitions (st : Settings) : Prop :=
  ∃ m, st.entry Setting.mergeStrategy = .ok m ∧ m.same (.int mergePartitions) = true

def BodyItem.call? : BodyItem → Option CallItem
  | .call c => some c
  | .input _ => none

def Element.calls (e : Element) : List CallItem := e.body.filterMap BodyItem.call?

def CallsInTurn (layers : Value) (ys : List ProcedureName) (e : Element) : Prop :=
  List.Forall₂ (fun y c => ∃ d, ContributedBy layers y d ∧ c = d.call) ys e.calls

theorem Value.SameBut.procedureName {v w : Value} (h : v.SameBut keys w) (hk : "metadata" ∉ keys) : procedureName w = procedureName v := by
  rw [TraceArtifacts.procedureName, TraceArtifacts.procedureName, h.has hk, h.entry hk]

theorem ContributedAs.carriedName_eq (h : ContributedAs layers linkType x c) {n : String} (hn : c.procedure = .text n) :
    carriedName layers x = n := by
  obtain ⟨l, o, hl, ho, hcon⟩ := h
  obtain ⟨o', ho', hs⟩ := hl.procedure' ho
  have hname := hcon.procedure
  rw [hs.procedureName (by decide), hn] at hname
  rw [carriedName, ho', Option.map_some, hname]

/-! ## Marks -/

theorem markMerged_marked {s s' : BuildState} {u : Unit} (h : markMerged (addressOf x) s = .ok u s') (y : ProcedureName) :
    IsMarked s'.layers y ↔ y = x ∨ IsMarked s.layers y := by
  simp only [markMerged, run_parts, run_modify_ok, address_object_ok] at h
  obtain ⟨o, ho, o', ho', rfl⟩ := h
  by_cases hy : y = x
  · subst hy
    have hmark := Value.entry_eq_ok_iff.2 (Value.at?_setEntry_self ho')
    obtain ⟨fs, rfl, hfs⟩ := Value.entry_ok.1 hmark
    refine iff_of_true ⟨_, .bool true, procedureAt?_put_self _ ho, ?_, rfl⟩ (.inl rfl)
    rw [Value.entryOr_object, hfs]
    rfl
  · simp only [IsMarked, procedureAt?_put_ne hy, hy, false_or]

/-- What holds after some turns: the layers are as they were but for the marks, which are on all procedures that have been
taken in. -/
structure Turned (layers : Value) (settings : Settings) (taken : List ProcedureName) (t : BuildState) :
    Prop where
  alike : Alike [mergedKey] layers t.layers
  settings : SameSettings settings t.settings
  marked : ∀ y, IsMarked t.layers y ↔ y ∈ taken

section Turns

variable {settings : Settings} {s s' : BuildState}

theorem Turned.mark (h : Turned layers settings taken s) {u : Unit}
    (hm : markMerged (addressOf x) s = .ok u s') : Turned layers settings (x :: taken) s' where
  alike := markMerged_alike hm h.alike
  settings := by
    obtain ⟨o, o', -, -, rfl⟩ := markMerged_ok hm
    exact h.settings
  marked := fun y => by rw [markMerged_marked hm, h.marked, List.mem_cons]

theorem Turned.congr (h : Turned layers settings taken s) {taken' : List ProcedureName}
    (he : ∀ y, y ∈ taken ↔ y ∈ taken') : Turned layers settings taken' s where
  alike := h.alike
  settings := h.settings
  marked := fun y => (h.marked y).trans (he y)

theorem Turned.contribute (h : Turned layers settings taken s) (hc : contributionOf (addressOf x) linkType s = .ok c s') :
    Turned layers settings taken s' ∧ ContributedBy layers x c ∧ ∀ n, c.procedure = .text n → carriedName layers x = n := by
  obtain ⟨hl, hst, -⟩ := contributionOf_ok hc
  obtain ⟨hl', has⟩ := contributedAs_of_run hc h.alike
  exact ⟨⟨hl', h.settings.trans hst, fun y => by rw [hl, h.marked]⟩, has.contributedBy, fun n hn => has.carriedName_eq hn⟩

theorem Turned.alone (h : Turned layers settings taken s) (hc : ContributedBy layers x c)
    (he : aloneElements (.text x.1) (.text x.2) groups c s = .ok es s') :
    List.Forall₂ (CallsInTurn layers) [[x]] es ∧ Turned layers settings (x :: taken) s' := by
  simp only [aloneElements, run_parts, run_pure_ok] at he
  obtain ⟨e, he, _, t, ht, rfl, rfl⟩ := he
  obtain ⟨n, -, rfl⟩ := singleElement_ok he
  exact ⟨.cons (.cons ⟨c, hc, rfl⟩ .nil) .nil, h.mark ht⟩

theorem mergedElement_calls {algo function : Value} {e : Element} (h : mergedElement algo function groups p c = .ok e) :
    e.calls = [p.call, c.call] := by
  simp only [mergedElement, bind_ok, pure_ok] at h
  obtain ⟨childName, -, name, -, _, -, _, -, rfl⟩ := h
  have hinputs : (c.inputs.map BodyItem.input).filterMap BodyItem.call? = [] := by
    simp [BodyItem.call?]
  simp only [Element.calls, List.filterMap_append, List.filterMap_cons, BodyItem.call?, hinputs,
    List.filterMap_nil, List.cons_append, List.nil_append]

theorem Turned.mergeChild (h : Turned layers settings taken s) (hp : ContributedBy layers x p) {k : Link} {r : Relation}
    (hk : k.path = .text r.toPath) (hy : r.toPath = procedurePath y) {e : Element}
    (he : mergeChild (.text x.1) (.text x.2) groups p k s = .ok e s') :
    CallsInTurn layers [x, r.target] e ∧ Turned layers settings (r.target :: taken) s' := by
  simp only [TraceArtifacts.mergeChild, hk, hy, run_parts, run_pure_ok, ofPath_procedurePath] at he
  obtain ⟨_, ⟨hslash, rfl⟩, c, t, hc, e', he, _, t', ht', rfl, rfl⟩ := he
  rw [Relation.target, hy, nameOfPath_procedurePath hslash]
  obtain ⟨ht, hby, -⟩ := h.contribute hc
  refine ⟨?_, ht.mark ht'⟩
  rw [CallsInTurn, mergedElement_calls he]
  exact .cons ⟨p, hp, rfl⟩ (.cons ⟨c, hby, rfl⟩ .nil)

theorem Turned.mergeChildren (hp : ContributedBy layers x p) {rs : List Relation}
    (hks : List.Forall₂ (fun (r : Relation) (k : Link) => k.path = .text r.toPath) rs ks)
    (hrs : ∀ r ∈ rs, ∃ y, r.toPath = procedurePath y) (h : Turned layers settings taken s)
    (he : ks.mapM (TraceArtifacts.mergeChild (.text x.1) (.text x.2) groups p) s = .ok es s') :
    List.Forall₂ (CallsInTurn layers) (rs.map fun r => [x, r.target]) es ∧ Turned layers settings (rs.map Relation.target ++ taken) s' := by
  induction hks generalizing taken s es with
  | nil =>
    rw [List.mapM_nil] at he
    cases he
    exact ⟨.nil, h⟩
  | @cons r k rs ks hk _ ih =>
    simp only [List.mapM_cons, run_bind_ok, run_pure_ok] at he
    obtain ⟨e, t, hke, es', t', hrest, rfl, rfl⟩ := he
    obtain ⟨y, hy⟩ := hrs r (.head _)
    obtain ⟨hcalls, ht⟩ := h.mergeChild hp hk hy hke
    obtain ⟨hall, ht'⟩ := ih (fun r' hr' => hrs r' (.tail _ hr')) ht hrest
    refine ⟨.cons hcalls hall, ht'.congr fun z => ?_⟩
    simp only [List.map_cons, List.cons_append, List.mem_append, List.mem_cons]
    exact or_left_comm

end Turns

/-! ## Elements follow the plan -/

theorem anyPartition_ok {b : Bool} (h : anyPartition ks = .ok b) : b = ks.any fun k => (k.name.has "partition").toOption.getD false := by
  induction ks with
  | nil => exact (Except.ok.inj h).symm
  | cons k ks ih =>
    rw [anyPartition] at h
    obtain ⟨c, hc, h⟩ := bind_ok.1 h
    cases c with
    | true =>
      cases h
      simp [hc, Except.toOption]
    | false =>
      rw [List.any_cons, ← ih h, hc]
      rfl

section Built

variable {relations : List Relation} {settings : Settings} {s s' : BuildState}

theorem waits_eq (hrel : HasRelations s.layers relations) (h : links s.layers .incoming (.text x.1) (.text x.2) = .ok ks) {b : Bool}
    (hb : anyPartition ks = .ok b) : (mergeRules layers relations).waits x = b := by
  have hwaits : (mergeRules layers relations).waits x =
      (relations.filter fun r => r.nearPath .incoming == procedurePath x).any Relation.fromPartition :=
    List.any_filter.symm
  rw [hwaits, anyPartition_ok hb]
  have hks := links_ok hrel h
  clear h hb
  generalize relations.filter _ = rs at hks ⊢
  induction hks with
  | nil => rfl
  | @cons r k rs ks hk _ ih =>
    have hname : r.fromMetadata.get "procedure_name" = k.name := Value.get_of_entry (linkOf_ok hk).name .null
    rw [List.any_cons, List.any_cons, ih, Relation.fromPartition, hname]

theorem links_readers (hrel : HasRelations s.layers relations) (h : links s.layers .outgoing (.text x.1) (.text x.2) = .ok ks) :
    List.Forall₂ (fun (r : Relation) (k : Link) => k.path = .text r.toPath) (relations.filter fun r => r.fromPath == procedurePath x) ks :=
  (links_ok hrel h).imp fun _ _ hk => (linkOf_ok hk).path

theorem partition_turn (hrel : HasRelations s.layers relations) (hpair : Paired relations) (hc : ContributedBy layers x c)
    (hx : (mergeRules layers relations).isPartition x = true) (hx' : x ∉ taken)
    (hks : links s.layers .outgoing (.text x.1) (.text x.2) = .ok ks) {t : BuildState} (ht : Turned layers settings taken t)
    (h : (if ks.isEmpty then aloneElements (.text x.1) (.text x.2) groups c
      else partitionElements (.text x.1) (.text x.2) groups c ks) t = .ok es s') :
    List.Forall₂ (CallsInTurn layers) ((mergeRules layers relations).turn taken x).1 es ∧
      Turned layers settings ((mergeRules layers relations).turn taken x).2 s' := by
  have hread := links_readers hrel hks
  have hempty : ((mergeRules layers relations).readers x).isEmpty = ks.isEmpty := by
    show (List.map _ (relations.filter _)).isEmpty = _
    generalize relations.filter _ = rs at hread ⊢
    cases hread <;> rfl
  rw [MergeRules.turn, if_neg hx', if_pos hx, hempty]
  split_ifs at h ⊢
  · exact ht.alone hc h
  · rw [mergeRules, List.map_map]
    simp only [partitionElements, run_bind_ok, run_pure_ok] at h
    obtain ⟨es', t1, hes, _, t2, ht2, rfl, rfl⟩ := h
    obtain ⟨hall, ht1⟩ := Turned.mergeChildren hc hread (fun r hr => hpair r (List.mem_of_mem_filter hr) .outgoing) ht hes
    exact ⟨hall, ht1.mark ht2⟩

theorem buildElements_turn (hrel : HasRelations layers relations) (hpair : Paired relations) (hm : MergesPartitions settings)
    (ht : Turned layers settings taken s) (h : buildElements (.text x.1) (.text x.2) (.text storedLink) s = .ok es s') :
    List.Forall₂ (CallsInTurn layers) ((mergeRules layers relations).turn taken x).1 es ∧
      Turned layers settings ((mergeRules layers relations).turn taken x).2 s' := by
  obtain ⟨_, groups, m, -, -, hm1, ⟨hmarked, rfl, rfl⟩ | ⟨hmarked, c, t, hc, h⟩⟩ := buildElements_cases h
  -- it has been taken in before
  · rw [MergeRules.turn, if_pos ((ht.marked x).1 hmarked)]
    exact ⟨.nil, ht⟩
  have htaken : x ∉ taken := fun hmem => hmarked ((ht.marked x).2 hmem)
  obtain ⟨m', hm', hmerge⟩ := hm
  rw [← ht.settings _ (by decide)] at hm'
  obtain rfl := ok_unique hm1 hm'
  obtain ⟨ht1, hby, hname⟩ := ht.contribute hc
  have hrel' : HasRelations s.layers relations := ht.alike.relations.trans hrel
  rw [if_pos hmerge] at h
  simp only [mergedElements, run_parts] at h
  obtain ⟨parents, hparents, name, hreceiver, h⟩ := h
  have hpart : (mergeRules layers relations).isPartition x = containsText (lowerText name) "partition" := by
    rw [mergeRules_isPartition, hname name (asTextReceiver_ok.1 hreceiver)]
  split at h
  next hp =>
    simp only [run_parts] at h
    obtain ⟨children, hchildren, h⟩ := h
    exact partition_turn hrel' hpair hby (hpart.trans hp) htaken hchildren ht1 h
  next hp =>
    simp only [run_parts] at h
    obtain ⟨b, hb, h⟩ := h
    have hwaits : (mergeRules layers relations).waits x = b := waits_eq hrel' hparents hb
    rw [MergeRules.turn, if_neg htaken, if_neg (by rw [hpart]; exact hp), hwaits]
    split at h
    next hb =>
      cases h
      rw [if_pos hb]
      exact ⟨.nil, ht1⟩
    next hb =>
      rw [if_neg hb]
      exact ht1.alone hby h

theorem buildElements_planned (hrel : HasRelations layers relations) (hpair : Paired relations) (hm : MergesPartitions settings)
    (ht : Turned layers settings taken s) {ess : List (List Element)}
    (h : xs.mapM (fun x => buildElements (.text x.1) (.text x.2) (.text storedLink)) s = .ok ess s') :
    List.Forall₂ (CallsInTurn layers) ((mergeRules layers relations).plan taken xs) ess.flatten ∧
      Turned layers settings ((mergeRules layers relations).takenAfter taken xs) s' := by
  induction xs generalizing taken s ess with
  | nil =>
    rw [List.mapM_nil] at h
    cases h
    exact ⟨.nil, ht⟩
  | cons x xs ih =>
    simp only [List.mapM_cons, run_bind_ok, run_pure_ok] at h
    obtain ⟨es, t, hx, ess', t', hrest, rfl, rfl⟩ := h
    obtain ⟨hes, ht'⟩ := buildElements_turn hrel hpair hm ht hx
    obtain ⟨hess, ht''⟩ := ih ht' hrest
    exact ⟨List.rel_append hes hess, ht''⟩

end Built

theorem Turned.fresh (hf : FreshBase layers) (settings : Settings) : Turned layers settings [] { settings, layers } :=
  ⟨.refl _ hf.base hf.records, .refl _, fun y => iff_of_false (hf.not_marked y) List.not_mem_nil⟩

theorem buildConsumption_planned {s s' : BuildState} (h : buildConsumption s = .ok es s') (hf : FreshBase s.layers)
    {relations : List Relation} (hrel : HasRelations s.layers relations) (hpair : Paired relations) (hm : MergesPartitions s.settings) :
    List.Forall₂ (CallsInTurn s.layers) ((mergeRules s.layers relations).plan [] (procedureNames s.layers)) es := by
  rw [buildConsumption_eq hf.base] at h
  obtain ⟨ess, t, hrun, h⟩ := run_bind_ok.1 h
  cases h
  exact (buildElements_planned hrel hpair hm (Turned.fresh hf s.settings) hrun).1

/-! ## How often procedures are called -/

/-- The call of a procedure: it is made by the name of the procedure, passes its inputs and binds its output tables and
variables. -/
def CallOf (layers : Value) (y : ProcedureName) (c : CallItem) : Prop :=
  ∃ o ts us vs ins outs, procedureAt? layers y = some o ∧ procedureName o = .ok c.name ∧
    partsUnder "input_tables" o = .ok ts ∧ partsUnder "output_tables" o = .ok us ∧
    partsUnder "output_vars" o = .ok vs ∧
    List.Forall₂ (fun t n => t.entry "interface_name" = .ok (.text n)) ts ins ∧
    List.Forall₂ (fun t n => t.entry "interface_name" = .ok (.text n)) (us ++ vs) outs ∧
    c.sql = callTemplate ins outs

theorem Contributes.callOf {o : Value} (hc : Contributes l linkType y o c) (hl : Alike keys layers l) (ho : procedureAt? l y = some o)
    (hkeys : ∀ k ∈ ["input_tables", "output_tables", "output_vars", "metadata"], k ∉ keys) : CallOf layers y c.call := by
  obtain ⟨o', ho', hs⟩ := hl.procedure' ho
  obtain ⟨ts, hts, hins⟩ := hc.inputs
  obtain ⟨us, vs, tables, vars, hus, hvs, htables, hvars, houtputs⟩ := hc.outputs
  obtain ⟨names, hnames, hcall⟩ := hc.call
  have hproc := hc.procedure
  rw [hs.procedureName (hkeys _ (by decide))] at hproc
  rw [hs.partsUnder (hkeys _ (by decide))] at hts hus hvs
  have hitems : List.Forall₂ (fun (t : Value) (i : OutputItem) => t.entry "interface_name" = .ok i.name) (us ++ vs) c.outputs := by
    rw [houtputs]
    refine List.rel_append ?_ ?_
    · exact List.forall₂_map_right_iff.2 (htables.imp fun _ _ ht => ht.name)
    · exact List.forall₂_map_right_iff.2 (hvars.imp fun _ _ hv => hv.name)
  refine ⟨o', ts, us, vs, c.inputs.map InputItem.name, names, ho', ?_, hts, hus, hvs, ?_, ?_, ?_⟩
  · rw [hcall]
    exact hproc
  · exact List.forall₂_map_right_iff.2 (hins.imp fun _ _ hi => hi.name)
  · refine forall₂_comp (fun {t i n} ht hi => ?_) hitems hnames
    rw [ht, hi]
  · rw [hcall]

def PlainNames (layers : Value) : Prop :=
  ∀ {x o}, procedureAt? layers x = some o → ∃ n, procedureName o = .ok (.text n) ∧ lowerText n = n

theorem entryOr_text {m : Value} {k d n : String} (h : m.entryOr k (.text d) = .ok (.text n)) :
    m.entry k = .ok (.text n) ∨ m.get k = .null ∧ n = d := by
  cases m with
  | object fs =>
    rw [Value.entryOr_object] at h
    rw [Value.entry_object, Value.get_object]
    cases hk : fs.lookup k with
    | none =>
      rw [hk] at h
      cases h
      exact .inr ⟨rfl, rfl⟩
    | some v =>
      rw [hk] at h
      cases h
      exact .inl rfl
  | _ =>
    obtain ⟨b, -, h⟩ := bind_ok.1 h
    cases b with
    | true => cases h
    | false =>
      cases h
      exact .inr ⟨rfl, rfl⟩

theorem Relation.Joins.fromPartition_eq {r : Relation} (h : r.Joins layers x y) (hplain : PlainNames layers) (relations : List Relation) :
    r.fromPartition = (mergeRules layers relations).isPartition x := by
  obtain ⟨o, ho, hmeta, -⟩ := h.writer
  obtain ⟨n, hn, hlower⟩ := hplain ho
  have hname : carriedName layers x = n := by
    rw [carriedName, ho, Option.map_some, hn]
  rw [mergeRules_isPartition, hname, hlower, Relation.fromPartition]
  obtain ⟨fs, rfl, hfs⟩ := Value.entry_ok.1 hmeta
  rw [procedureName, Value.has_object, hfs, hmeta] at hn
  change r.fromMetadata.entryOr "procedure_name" (.text "") = .ok (.text n) at hn
  rcases entryOr_text hn with hentry | ⟨hnone, rfl⟩
  · rw [Value.get_of_entry hentry]
    rfl
  · rw [hnone]
    rfl

theorem waits_iff_readings (hb : IsBaseLayer layers) {relations : List Relation} (hrel : buildRelations layers = .ok relations)
    (hslash : ∀ x ∈ procedureNames layers, SlashFree x) (hplain : PlainNames layers) (hx : x ∈ procedureNames layers) :
    (mergeRules layers relations).waits x = true ↔ 0 < (mergeRules layers relations).readings x
      ((procedureNames layers).filter (mergeRules layers relations).isPartition) := by
  have hmem : ∀ {z o}, procedureAt? layers z = some o → SlashFree z := fun ho => hslash _ ((mem_procedureNames hb).2 ⟨_, ho⟩)
  rw [MergeRules.readings, List.sum_pos_iff_exists_pos_nat]
  simp only [List.mem_map, List.mem_filter]
  constructor
  · intro hw
    obtain ⟨r, hr, hpath⟩ := List.any_eq_true.1 hw
    obtain ⟨hto, hfrom⟩ := Bool.and_eq_true_iff.1 hpath
    obtain ⟨p, z, hj⟩ := buildRelations_grounded hb hrel hr
    obtain ⟨o, ho, -⟩ := hj.writer
    refine ⟨_, ⟨p, ⟨(mem_procedureNames hb).2 ⟨o, ho⟩, ?_⟩, rfl⟩, List.count_pos_iff.2 ?_⟩
    · rw [← hj.fromPartition_eq hplain, hfrom]
    · refine List.mem_map.2 ⟨r, List.mem_filter.2 ⟨hr, by rw [hj.fromPath, beq_self_eq_true]⟩, ?_⟩
      rw [Relation.target, beq_iff_eq.1 hto, nameOfPath_procedurePath (hslash x hx)]
  · rintro ⟨_, ⟨p, ⟨hp, hpart⟩, rfl⟩, hpos⟩
    obtain ⟨r, hr, htarget⟩ := List.mem_map.1 (List.count_pos_iff.1 hpos)
    obtain ⟨hr, hfrom⟩ := List.mem_filter.1 hr
    obtain ⟨p', z, hj⟩ := buildRelations_grounded hb hrel hr
    obtain ⟨o, ho, -⟩ := hj.reader
    obtain rfl : p = p' := procedurePath_injective (hslash p hp) ((beq_iff_eq.1 hfrom).symm.trans hj.fromPath)
    rw [Relation.target, hj.toPath, nameOfPath_procedurePath (hmem ho)] at htarget
    subst htarget
    refine List.any_eq_true.2 ⟨r, hr, ?_⟩
    rw [hj.toPath, hj.fromPartition_eq hplain, hpart, beq_self_eq_true, Bool.and_self]

/-- How often the elements of a base layer with these relations call its procedures. -/
structure Called (layers : Value) (rules : MergeRules) (elements : List Element) : Prop where
  calls : List.Forall₂ (fun ys e => List.Forall₂ (CallOf layers) ys e.calls) (rules.plan [] (procedureNames layers)) elements
  partitions : ∀ x ∈ procedureNames layers, rules.isPartition x = true → 0 < MergeRules.called x (rules.plan [] (procedureNames layers))
  others : ∀ before x after, procedureNames layers = before ++ x :: after → rules.isPartition x = false →
    MergeRules.called x (rules.plan [] (procedureNames layers)) = rules.readings x (rules.mergers [] (procedureNames layers)) +
        if rules.waits x = true ∨ ∃ p ∈ rules.mergers [] before, x ∈ rules.readers p then 0 else 1
  once : (∀ x ∈ procedureNames layers, SlashFree x) → PlainNames layers → (∀ p ∈ procedureNames layers, rules.isPartition p = true →
      ∀ q ∈ rules.readers p, rules.isPartition q = false) →
    ∀ x ∈ procedureNames layers, rules.isPartition x = false → rules.readings x ((procedureNames layers).filter rules.isPartition) ≤ 1 →
      MergeRules.called x (rules.plan [] (procedureNames layers)) = 1

theorem mergeRules_alike (h : Alike keys layers l) (hk : "metadata" ∉ keys) (relations : List Relation) :
    mergeRules l relations = mergeRules layers relations := by
  have hname : carriedName l = carriedName layers := by
    funext x
    unfold carriedName
    cases ho : procedureAt? layers x with
    | some o =>
      obtain ⟨o', ho', hs⟩ := h.procedure ho
      rw [ho', Option.map_some, Option.map_some, hs.procedureName hk]
    | none =>
      cases ho' : procedureAt? l x with
      | none => rfl
      | some o' =>
        obtain ⟨o, ho1, -⟩ := h.procedure' ho'
        simp [ho] at ho1
  simp only [mergeRules, hname]

/-- How often the procedures of a fresh base layer are called if partitions are merged. -/
theorem relateAndBuild_called {s s' : Session} {layers : Value} {elements : List Element}
    (h : relateAndBuild s = .ok elements s') (hl : s.settings.entry Setting.layers = .ok layers)
    (hf : FreshBase layers) (hm : MergesPartitions s.settings) :
    ∃ relations, buildRelations layers = .ok relations ∧ Called layers (mergeRules layers relations) elements := by
  obtain ⟨relations, l, g, st, b, hrel, hset, hg, hst, hb, -⟩ := relateAndBuild_ok h hl
  obtain ⟨hbase, halike, hf1, hhas, hpair⟩ := groupedFrom hf hrel hset hg s.shownGroups
  have hm1 : MergesPartitions st := by
    obtain ⟨m, hm, hmerge⟩ := hm
    exact ⟨m, (hst _ (by decide)).trans hm, hmerge⟩
  have hplan := buildConsumption_planned hb hf1 hhas hpair hm1
  -- names and rules are those of the base layer at the start
  have hnames := halike.names.trans (procedureNames_congr hbase)
  have hrules : mergeRules (refreshGroups s.shownGroups g.layers) relations = mergeRules layers relations := by
    rw [mergeRules_alike halike (by decide)]
    simp only [mergeRules, carriedName, procedureAt?_congr hbase]
  rw [hnames, hrules] at hplan
  have hcall : ∀ y c, (∃ d, ContributedBy (refreshGroups s.shownGroups g.layers) y d ∧ c = d.call) → CallOf layers y c := by
    rintro y c ⟨d, ⟨l', o, linkType, hl', ho, hd⟩, rfl⟩
    have hall : Alike ["groups", mergedKey] l l' := (halike.mono (by simp)).trans (hl'.mono (by simp))
    obtain ⟨o', hrest⟩ := hd.callOf hall ho (by decide)
    rw [procedureAt?_congr hbase] at hrest
    exact ⟨o', hrest⟩
  have hnd := procedureNames_nodup hf.base
  refine ⟨relations, hrel, hplan.imp fun ys e he => he.imp hcall, fun x hx hp => ?_,
    fun before x after hsplit hx => ?_, fun hslash hplain hread x hx hp hone => ?_⟩
  · exact MergeRules.called_partition _ hx hp
  · rw [hsplit] at hnd ⊢
    exact MergeRules.called_plan hx hnd
  · exact MergeRules.called_once _ hnd hread hx hp hone (waits_iff_readings hf.base hrel hslash hplain hx)

def mergingSession (layers : Value) : Session where
  settings := Settings.builtin ++ [(Setting.mergeStrategy, .int mergePartitions),
    (Setting.groupStrategy, .int functionalGrouping), (Setting.layers, layers),
    (Setting.sourceMapping, .object [])]

def partitionedLayers : Value :=
  .object [(baseKey, .object [("Split", .object
      [("Partition", sampleProcedure "partition" [sampleTable "data" "FROM S.D"] [sampleTable "parts" "#P"])]),
    ("Forest", .object [("Fit", sampleProcedure "fit" [sampleTable "train" "FROM #P", sampleTable "test" "FROM #P"]
        [sampleTable "model" "#M"])])])]

def chainedLayers : Value :=
  .object [(baseKey, .object [("Split", .object
      [("Partition", sampleProcedure "partition" [sampleTable "data" "FROM S.D"] [sampleTable "parts" "#P"]),
       ("Repartition", sampleProcedure "repartition" [sampleTable "parts" "FROM #P"] [sampleTable "again" "#Q"])]),
    ("Forest", .object [("Fit", sampleProcedure "fit" [sampleTable "train" "FROM #Q"] [sampleTable "model" "#M"])])])]

theorem partitionedLayers_fresh : FreshBase partitionedLayers := by
  have hrows : HasRows partitionedLayers (partitionedLayers.fieldsAt baseKey) := by
    refine ⟨rfl, by decide, fun p hp => ?_⟩
    rcases List.mem_cons.1 hp with rfl | hp
    · exact ⟨_, rfl, by decide⟩
    · obtain rfl := List.mem_singleton.1 hp
      exact ⟨_, rfl, by decide⟩
  refine freshBase_of_rows hrows fun p hp => ?_
  rcases List.mem_cons.1 hp with rfl | hp
  · exact ⟨_, rfl, rfl⟩
  · obtain rfl := List.mem_singleton.1 hp
    exact ⟨_, rfl, rfl⟩

/-- Two relations lead from the partition to the procedure that fits, so two elements call it. -/
theorem relateAndBuild_called_sample : ∃ elements s' relations, relateAndBuild (mergingSession partitionedLayers) = .ok elements s' ∧
      Called partitionedLayers (mergeRules partitionedLayers relations) elements ∧
      MergeRules.called ("Forest", "Fit") ((mergeRules partitionedLayers relations).plan [] (procedureNames partitionedLayers)) = 2 := by
  obtain ⟨elements, s', h, -⟩ := exists_of_succeedsWith (r := relateAndBuild (mergingSession partitionedLayers))
    (t := fun _ _ => true) (by decide +kernel)
  obtain ⟨relations, hrel, hcalled⟩ := relateAndBuild_called h rfl partitionedLayers_fresh ⟨_, rfl, by decide⟩
  have htwo : (buildRelations partitionedLayers).toOption.map (fun relations =>
      MergeRules.called ("Forest", "Fit") ((mergeRules partitionedLayers relations).plan []
        (procedureNames partitionedLayers))) = some 2 := by decide +kernel
  rw [hrel] at htwo
  exact ⟨elements, s', relations, h, hcalled, Option.some.inj htwo⟩

/-- A step can be lost: the second partition is taken in by the first and so takes in nothing, and the procedure that fits
waits for it. -/
theorem relateAndBuild_loses_step : ∃ elements s', relateAndBuild (mergingSession chainedLayers) = .ok elements s' ∧
      ("Forest", "Fit") ∈ procedureNames chainedLayers ∧ carriedName chainedLayers ("Forest", "Fit") = "fit" ∧
      ∀ e ∈ elements, ∀ c ∈ e.calls, c.name ≠ .text "fit" := by
  have hrun : succeedsWith (fun elements _ => elements.all fun e => e.calls.all fun c =>
      !c.name.same (.text "fit")) (relateAndBuild (mergingSession chainedLayers)) = true := by decide +kernel
  obtain ⟨elements, s', h, hnone⟩ := exists_of_succeedsWith hrun
  refine ⟨elements, s', h, by decide +kernel, by decide +kernel, fun e he c hc hname => ?_⟩
  have hother := List.all_eq_true.1 (List.all_eq_true.1 hnone e he) c hc
  rw [same_text_iff.2 hname] at hother
  cases hother

end TraceArtifacts
