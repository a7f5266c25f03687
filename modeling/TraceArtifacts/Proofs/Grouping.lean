import TraceArtifacts.Proofs.Relations

/-!
# Proofs: what grouping changes

Grouping changes one procedure at a time: it gives it a list for its groups, or puts a group at the end of that list (`Regroups`).
-/

namespace TraceArtifacts

variable {s s' : GroupState} {l layers o o' : Value}

def Group.named (kind identifier uid : String) : Group where
  kind := .text kind
  identifier := .text identifier
  uid := .text uid

/-- What grouping does to a procedure at once. -/
inductive Regroups (o o' : Value) : Prop
  | opened (h : withGroups o = .ok o')
  | added (kind identifier uid : String) (h : addGroup (.named kind identifier uid) o = .ok o')

/-- The layers that grouping leads to. -/
inductive Regrouped (layers : Value) : Value → Prop
  | refl : Regrouped layers layers
  | step {l : Value} {x : ProcedureName} {o o' : Value} (h : Regrouped layers l)
      (ho : procedureAt? l x = some o) (hg : Regroups o o') :
      Regrouped layers ((addressOf x).put o' l)

/-! ## One procedure -/

theorem isGrouped_ok {b : Bool} (h : isGrouped o = .ok b) (hb : b = true) : ∃ gs, o.entry "groups" = .ok gs ∧ gs.isTruthy = true := by
  subst hb
  obtain ⟨c, -, h⟩ := bind_ok.1 h
  cases c with
  | false => exact absurd (pure_ok.1 h) (by simp)
  | true =>
    obtain ⟨gs, hgs, h⟩ := bind_ok.1 h
    exact ⟨gs, hgs, pure_ok.1 h⟩

theorem withGroups_sameBut (h : withGroups o = .ok o') : o.SameBut ["groups"] o' := by
  obtain ⟨b, hb, h⟩ := bind_ok.1 h
  cases b with
  | false => exact Value.sameBut_setEntry h
  | true =>
    cases h
    obtain ⟨gs, hgs, -⟩ := isGrouped_ok hb rfl
    obtain ⟨fs, rfl, -⟩ := Value.entry_ok.1 hgs
    exact .refl _ fs

theorem addGroup_sameBut {g : Group} (h : addGroup g o = .ok o') : o.SameBut ["groups"] o' := by
  simp only [addGroup, bind_ok] at h
  obtain ⟨v, hv, gs, -, gs', -, h⟩ := h
  exact (withGroups_sameBut hv).trans (Value.sameBut_setEntry h)

theorem Regroups.sameBut (h : Regroups o o') : o.SameBut ["groups"] o' := by
  rcases h with h | ⟨kind, identifier, uid, h⟩
  · exact withGroups_sameBut h
  · exact addGroup_sameBut h

/-! ## The layers -/

theorem chainBound_eq (h : IsBaseLayer l) : chainBound l = (procedureNames l).length := by
  obtain ⟨rows, h⟩ := h
  obtain ⟨fs, rfl, hb⟩ := h.isRecord
  have hrows : (Value.object fs).fieldsAt baseKey = rows := by
    show (((fs.lookup baseKey).getD .null).toFields) = rows
    rw [hb]
    rfl
  rw [chainBound, hrows, procedureNames, h.procedures, List.length_map, List.length_flatMap, List.length_flatMap]
  simp only [rowProcedures, List.length_map]

theorem Regrouped.alike (h : Regrouped layers l) (hb : IsBaseLayer layers) (hr : HasRecords layers) : Alike ["groups"] layers l := by
  induction h with
  | refl => exact .refl _ hb hr
  | step _ ho hg ih => exact ih.trans (.put ih.base' ih.hasRecords ho hg.sameBut)

theorem Regrouped.relations (h : Regrouped layers l) : l.at? [.key relationsKey] = layers.at? [.key relationsKey] := by
  induction h with
  | refl => rfl
  | @step l x o o' _ _ _ ih => rw [at?_put_of_ne (by decide), ih]

theorem change_ok {x : ProcedureName} {f : Value → Outcome Value} {u : Unit} (h : GroupStep.change (addressOf x) f s = .ok u s') :
    ∃ o o', procedureAt? s.layers x = some o ∧ f o = .ok o' ∧ s' = { s with layers := (addressOf x).put o' s.layers } := by
  simp only [GroupStep.change, run_parts, run_modify_ok] at h
  obtain ⟨o, ho, o', ho', rfl⟩ := h
  exact ⟨o, o', address_object_ok.1 ho, ho', rfl⟩

theorem fresh_ok {uid : String} (h : GroupStep.fresh s = .ok uid s') :
    uid = identifier s.nextId ∧ s' = { s with nextId := s.nextId + 1 } := by
  simp only [GroupStep.fresh, run_bind_ok, run_get_bind, run_set_ok, run_pure_ok] at h
  obtain ⟨_, _, rfl, rfl, rfl⟩ := h
  exact ⟨rfl, rfl⟩

section Runs

variable {relations : List Relation}

theorem keeps_withGroups (x : ProcedureName) : Keeps (fun s => Regrouped layers s.layers) (GroupStep.change (addressOf x) withGroups) := by
  intro s u s' h hI
  obtain ⟨o, o', ho, ho', rfl⟩ := change_ok h
  exact hI.step ho (.opened ho')

theorem keeps_addGroup (x : ProcedureName) (kind identifier uid : String) : Keeps (fun s => Regrouped layers s.layers)
      (GroupStep.change (addressOf x) (addGroup (.named kind identifier uid))) := by
  intro s u s' h hI
  obtain ⟨o, o', ho, ho', rfl⟩ := change_ok h
  exact hI.step ho (.added kind identifier uid ho')

def Paired (relations : List Relation) : Prop :=
  ∀ r ∈ relations, ∀ d, ∃ x, r.farPath d = procedurePath x

theorem links_path (hp : Paired relations) (hrel : HasRelations l relations) {d : Direction} {x : ProcedureName} {ks : List Link}
    (h : links l d (.text x.1) (.text x.2) = .ok ks) {k : Link} (hk : k ∈ ks) : ∃ y, k.path = .text (procedurePath y) := by
  obtain ⟨r, hr, hkr⟩ := forall₂_mem_right (links_ok hrel h) hk
  obtain ⟨y, hy⟩ := hp r (List.mem_of_mem_filter hr) d
  exact ⟨y, by rw [(linkOf_ok hkr).path, hy]⟩

theorem keeps_takeIn (x : ProcedureName) (kind identifier uid : String) : Keeps (fun s => Regrouped layers s.layers)
      (takeIn (.named kind identifier uid) (addressOf x)) := by
  refine keeps_get.bind fun t => .lift fun o _ => .lift fun b _ => ?_
  cases b with
  | false => exact keeps_pure _
  | true => exact keeps_addGroup x kind identifier uid

theorem keeps_walkChain (hp : Paired relations) (hrel : HasRelations layers relations)
    (d : Direction) (kind identifier uid : String) (fuel : Nat) (x : ProcedureName) :
    Keeps (fun s => Regrouped layers s.layers) (walkChain d (.named kind identifier uid) fuel (.text (procedurePath x))) := by
  induction fuel generalizing x with
  | zero => exact keeps_throw _
  | succ fuel ih =>
    intro s u s' h hI
    simp only [walkChain, run_parts, ofPath_procedurePath] at h
    obtain ⟨_, ⟨-, rfl⟩, _, t, ht, ks, hks, h⟩ := h
    have hI' : Regrouped layers t.layers := keeps_takeIn x kind identifier uid ht hI
    refine Keeps.forM (I := fun s => Regrouped layers s.layers) (fun k hk => ?_) h hI'
    obtain ⟨y, hy⟩ := links_path hp (hI'.relations.trans hrel) hks hk
    rw [hy]
    exact ih y

theorem keeps_walkGroup (hp : Paired relations) (hrel : HasRelations layers relations) (kind identifier uid : String) (x : ProcedureName) :
    Keeps (fun s => Regrouped layers s.layers) (walkGroup (.named kind identifier uid) (.text x.1) (.text x.2)) := by
  intro s u s' h hI
  simp only [walkGroup, run_parts] at h
  obtain ⟨_, t, ht, before, hb, after, ha, _, t', ht', h⟩ := h
  have hI' : Regrouped layers t.layers := keeps_addGroup x kind identifier uid ht hI
  have hchain : ∀ d ks, links t.layers d (.text x.1) (.text x.2) = .ok ks → Keeps (fun s => Regrouped layers s.layers)
        (ks.forM fun k => walkChain d (.named kind identifier uid) (chainBound t.layers) k.path) := by
    intro d ks hks
    refine Keeps.forM fun k hk => ?_
    obtain ⟨y, hy⟩ := links_path hp (hI'.relations.trans hrel) hks hk
    rw [hy]
    exact keeps_walkChain hp hrel d kind identifier uid _ y
  exact hchain _ _ ha h (hchain _ _ hb ht' hI')

theorem keeps_startGroup (hp : Paired relations) (hrel : HasRelations layers relations) (x : ProcedureName) :
    Keeps (fun s => Regrouped layers s.layers) (startGroup (.text x.1) (.text x.2)) := by
  intro s u s' h hI
  simp only [startGroup, run_parts, Value.asText, Except.ok.injEq] at h
  obtain ⟨_, t, ht, uid, t', ht', _, rfl, _, rfl, h⟩ := h
  have hI' : Regrouped layers t.layers := keeps_withGroups x ht hI
  obtain ⟨-, rfl⟩ := fresh_ok ht'
  cases hk : GroupKind.ofFunction? x.2 with
  | none =>
    rw [hk] at h
    cases h
    exact hI'
  | some kind =>
    rw [hk] at h
    exact keeps_walkGroup hp hrel _ _ _ x h hI'

theorem keeps_joinCommonGroup (x : ProcedureName) :
    Keeps (fun s => Regrouped layers s.layers) (joinCommonGroup (.text x.1) (.text x.2)) := by
  intro s u s' h hI
  simp only [joinCommonGroup, run_parts] at h
  obtain ⟨_, -, uid, t, ht, h⟩ := h
  obtain ⟨-, rfl⟩ := fresh_ok ht
  exact keeps_addGroup x _ _ _ h hI

end Runs

theorem setGroups_regrouped {settings : Settings} {u : Unit} (h : setGroups settings s = .ok u s') (hb : IsBaseLayer s.layers)
    {relations : List Relation} (hp : Paired relations) (hrel : HasRelations s.layers relations) : Regrouped s.layers s'.layers := by
  obtain ⟨rows, hrows⟩ := hb
  simp only [setGroups, run_parts] at h
  obtain ⟨strategy, -, base, hbase, h⟩ := h
  obtain rfl : .object rows = base := ok_unique hrows.entry hbase
  split at h
  · rw [forEachFunction_eq hrows] at h
    exact Keeps.forM (fun x _ => keeps_startGroup hp hrel x) h .refl
  · rw [forEachFunction_eq hrows] at h
    exact Keeps.forM (fun x _ => keeps_joinCommonGroup x) h .refl

end TraceArtifacts
