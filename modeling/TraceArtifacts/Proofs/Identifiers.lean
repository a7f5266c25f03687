import TraceArtifacts.Proofs.Grouping

/-!
# Proofs: groups under other identifiers

Grouping draws an identifier for each group and never looks at it.
-/

namespace TraceArtifacts

variable {d : Direction} {ks : List Link} {k : String} {algo function groups layers o o' v w : Value}

/-! ## The number of an identifier -/

def digitValue (c : Char) : Nat := (List.range 16).findIdx fun d => d.digitChar == c

def digitsValue (cs : List Char) : Nat := cs.foldl (fun n c => 16 * n + digitValue c) 0

theorem digitsValue_toDigits (n : Nat) : digitsValue (Nat.toDigits 16 n) = n := by
  induction n using Nat.strongRecOn with
  | ind n ih =>
    have hdigit : ∀ d < 16, digitValue d.digitChar = d := by decide
    rw [Nat.toDigits_eq_if (by decide)]
    split
    · next h => simp [digitsValue, hdigit n h]
    · have hdiv := ih (n / 16) (Nat.div_lt_self (by omega) (by decide))
      rw [digitsValue, List.foldl_append, ← digitsValue, hdiv, List.foldl_cons, List.foldl_nil, hdigit _ (Nat.mod_lt _ (by decide))]
      omega

theorem digitsValue_replicate_append (k : Nat) (cs : List Char) : digitsValue (List.replicate k '0' ++ cs) = digitsValue cs := by
  induction k with
  | zero => rfl
  | succ k ih =>
    rw [← ih]
    rfl

theorem digitsValue_identifier (n : Nat) : digitsValue (identifier n).toList = n := by
  rw [identifier, String.toList_ofList, digitsValue_replicate_append, digitsValue_toDigits]

theorem identifier_injective {m n : Nat} (h : identifier m = identifier n) : m = n := by
  rw [← digitsValue_identifier m, h, digitsValue_identifier]

/-! ## Other identifiers -/

def Value.mapText (f : String → String) : Value → Value
  | .text s => .text (f s)
  | v => v

def Value.eachMember (f : Value → Value) : Value → Value
  | .list xs => .list (xs.map f)
  | v => v

def Value.eachEntry (f : Value → Value) : Value → Value
  | .object fs => .object (fs.map fun p => (p.1, f p.2))
  | v => v

def renameGroups (σ : String → String) : Value → Value :=
  Value.eachMember (Value.modifyAt (Value.mapText σ) [.key "uid"])

def renameShown (σ : String → String) : Value → Value := Value.modifyAt (renameGroups σ) [.key "groups"]

def renameBase (σ : String → String) : Value → Value :=
  Value.modifyAt (Value.eachEntry (Value.eachEntry (renameShown σ))) [.key baseKey]

def Group.renamed (σ : String → String) (g : Group) : Group := { g with uid := g.uid.mapText σ }

def Link.renamed (σ : String → String) (k : Link) : Link := { k with groups := renameGroups σ k.groups }

/-! ## Records -/

namespace Fields

theorem modify_set (k : String) (f : Value → Value) (v : Value) (fs : Fields) :
    Fields.modify k f (Fields.set k v fs) = Fields.set k (f v) (Fields.modify k f fs) := by
  induction fs with
  | nil => simp [Fields.modify, Fields.set]
  | cons p fs ih =>
    obtain ⟨a, w⟩ := p
    by_cases h : a = k <;> simp [Fields.modify, Fields.set, h, ih]

theorem modify_set_ne {k' : String} (h : k ≠ k') (f : Value → Value) (v : Value) (fs : Fields) :
    Fields.modify k f (Fields.set k' v fs) = Fields.set k' v (Fields.modify k f fs) := by
  induction fs with
  | nil => simp [Fields.modify, Fields.set, Ne.symm h]
  | cons p fs ih =>
    obtain ⟨a, w⟩ := p
    by_cases ha : a = k'
    · have hk : ¬ a = k := fun e => h (e.symm.trans ha)
      simp [Fields.modify, Fields.set, ha, Ne.symm h]
    · by_cases hk : a = k <;> simp [Fields.modify, Fields.set, ha, hk, ih, h]

theorem lookup_map (f : Value → Value) (k : String) (fs : Fields) : (fs.map fun p => (p.1, f p.2)).lookup k = (fs.lookup k).map f := by
  induction fs with
  | nil => rfl
  | cons p fs ih =>
    rw [List.map_cons, List.lookup_cons, List.lookup_cons, ih]
    cases k == p.1 <;> rfl

theorem map_modify {f g h : Value → Value} (hfg : ∀ v, f (g v) = h (f v)) (fs : Fields) :
    (Fields.modify k g fs).map (fun p => (p.1, f p.2)) = Fields.modify k h (fs.map fun p => (p.1, f p.2)) := by
  induction fs with
  | nil => rfl
  | cons p fs ih =>
    obtain ⟨a, v⟩ := p
    by_cases ha : a = k <;> simp [Fields.modify, ha, hfg, ih]

end Fields

/-! ## What shows groups -/

section Renaming

variable {σ : String → String}

theorem renameShown_object (σ : String → String) (fs : Fields) :
    renameShown σ (.object fs) = .object (Fields.modify "groups" (renameGroups σ) fs) := rfl

theorem sameBut_renameShown (σ : String → String) (fs : Fields) : (Value.object fs).SameBut ["groups"] (renameShown σ (.object fs)) := by
  refine ⟨fs, _, rfl, rfl, fun k hk => ?_⟩
  rw [Fields.lookup_modify, if_neg (by simpa using hk)]

theorem entry_renameShown (hk : k ≠ "groups") (o : Value) : (renameShown σ o).entry k = o.entry k := by
  cases o with
  | object fs => exact (sameBut_renameShown σ fs).entry (by simpa using hk)
  | _ => rfl

theorem entry_groups_renameShown (h : o.entry "groups" = .ok v) : (renameShown σ o).entry "groups" = .ok (renameGroups σ v) := by
  obtain ⟨fs, rfl, hfs⟩ := Value.entry_ok.1 h
  rw [renameShown_object, Value.entry_object, Fields.lookup_modify, if_pos rfl, hfs]
  rfl

theorem has_renameShown (k : String) (o : Value) : (renameShown σ o).has k = o.has k := by
  cases o with
  | object fs =>
    rw [renameShown_object, Value.has_object, Value.has_object, Fields.lookup_modify]
    split <;> simp
  | _ => rfl

theorem isTruthy_renameGroups (σ : String → String) (v : Value) : (renameGroups σ v).isTruthy = v.isTruthy := by
  cases v with
  | list xs => cases xs <;> rfl
  | _ => rfl

theorem setEntry_groups_renameShown (h : o.setEntry "groups" v = .ok w) :
    (renameShown σ o).setEntry "groups" (renameGroups σ v) = .ok (renameShown σ w) := by
  cases o with
  | object fs =>
    cases h
    exact congrArg (Except.ok ∘ Value.object) (Fields.modify_set ..).symm
  | _ => cases h

theorem setEntry_renameShown (hk : k ≠ "groups") (h : o.setEntry k v = .ok w) : (renameShown σ o).setEntry k v = .ok (renameShown σ w) := by
  cases o with
  | object fs =>
    cases h
    exact congrArg (Except.ok ∘ Value.object) (Fields.modify_set_ne (Ne.symm hk) ..).symm
  | _ => cases h

theorem toValue_renamed (σ : String → String) (g : Group) :
    (g.renamed σ).toValue = Value.modifyAt (Value.mapText σ) [.key "uid"] g.toValue := rfl

theorem append_renameGroups {g : Group} (h : v.append [g.toValue] = .ok w) :
    (renameGroups σ v).append [(g.renamed σ).toValue] = .ok (renameGroups σ w) := by
  cases v with
  | list xs =>
    cases h
    refine congrArg (Except.ok ∘ Value.list) ?_
    rw [List.map_append, toValue_renamed]
    rfl
  | _ => cases h

theorem isGrouped_renameShown (o : Value) : isGrouped (renameShown σ o) = isGrouped o := by
  cases o with
  | object fs =>
    rw [isGrouped, isGrouped, has_renameShown, Value.has_object]
    cases hfs : fs.lookup "groups" with
    | none => rfl
    | some v =>
      have hentry := Value.entry_ok.2 ⟨fs, rfl, hfs⟩
      rw [hentry, entry_groups_renameShown hentry]
      exact congrArg Except.ok (isTruthy_renameGroups σ v)
  | _ => rfl

theorem withGroups_renamed (h : withGroups o = .ok o') : withGroups (renameShown σ o) = .ok (renameShown σ o') := by
  rw [withGroups, isGrouped_renameShown]
  obtain ⟨b, hb, h⟩ := bind_ok.1 h
  refine bind_ok.2 ⟨b, hb, ?_⟩
  cases b with
  | true =>
    cases h
    rfl
  | false => exact setEntry_groups_renameShown (σ := σ) h

theorem addGroup_renamed {g : Group} (h : addGroup g o = .ok o') : addGroup (g.renamed σ) (renameShown σ o) = .ok (renameShown σ o') := by
  simp only [addGroup, bind_ok] at h ⊢
  obtain ⟨v, hv, gs, hgs, gs', hgs', h⟩ := h
  exact ⟨_, withGroups_renamed hv, _, entry_groups_renameShown hgs, _, append_renameGroups hgs', setEntry_groups_renameShown h⟩

theorem joins_renamed (o kind : Value) : joins (renameShown σ o) kind = joins o kind := by
  unfold joins
  rw [entry_renameShown (by decide)]

theorem shownGroupsOf_renamed (h : shownGroupsOf o = .ok groups) : shownGroupsOf (renameShown σ o) = .ok (renameGroups σ groups) := by
  simp only [shownGroupsOf, bind_ok, pure_ok] at h ⊢
  obtain ⟨v, hv, rfl⟩ := h
  refine ⟨renameGroups σ v, ?_, ?_⟩
  · rw [Value.entryOr, has_renameShown]
    obtain ⟨b, hb, hv⟩ := bind_ok.1 hv
    refine bind_ok.2 ⟨b, hb, ?_⟩
    cases b with
    | true => exact entry_groups_renameShown hv
    | false =>
      cases hv
      rfl
  · rw [isTruthy_renameGroups]
    split <;> rfl

end Renaming

/-! ## Layers -/

section RenamedLayers

variable (σ : String → String)

theorem at?_eachEntry (f : Value → Value) (k : String) (rest : Place) (v : Value) :
    (v.eachEntry f).at? (.key k :: rest) = (v.at? [.key k]).bind fun w => (f w).at? rest := by
  cases v with
  | object fs =>
    show ((fs.map fun p => (p.1, f p.2)).lookup k).bind (Value.at? rest) = ((fs.lookup k).bind (Value.at? [])).bind _
    rw [Fields.lookup_map]
    cases fs.lookup k <;> rfl
  | _ => rfl

theorem procedureAt?_renameBase (layers : Value) (x : ProcedureName) :
    procedureAt? (renameBase σ layers) x = (procedureAt? layers x).map (renameShown σ) := by
  have hstep : ∀ l : Value, procedureAt? l x = (l.at? [.key baseKey]).bind (Value.at? [.key x.1, .key x.2]) := fun l => Value.at?_cons ..
  rw [hstep, hstep, renameBase, Value.at?_modifyAt_self]
  cases layers.at? [.key baseKey] with
  | none => rfl
  | some base =>
    show (base.eachEntry _).at? [.key x.1, .key x.2] = (base.at? [.key x.1, .key x.2]).map _
    rw [at?_eachEntry, Value.at?_cons (.key x.1) [.key x.2]]
    cases base.at? [.key x.1] with
    | none => rfl
    | some row =>
      show (row.eachEntry _).at? [.key x.2] = (row.at? [.key x.2]).map _
      rw [at?_eachEntry]
      cases row.at? [.key x.2] <;> rfl

theorem eachEntry_putAt {f : Value → Value} {rest : Place}
    (h : ∀ u, f (Value.modifyAt (fun _ => v) rest u) = Value.modifyAt (fun _ => w) rest (f u)) (k : String) (u : Value) :
    Value.eachEntry f (Value.modifyAt (fun _ => v) (.key k :: rest) u) =
      Value.modifyAt (fun _ => w) (.key k :: rest) (Value.eachEntry f u) := by
  cases u with
  | object fs => exact congrArg Value.object (Fields.map_modify h fs)
  | _ => rfl

theorem renameBase_put (x : ProcedureName) (o layers : Value) :
    renameBase σ ((addressOf x).put o layers) = (addressOf x).put (renameShown σ o) (renameBase σ layers) := by
  cases layers with
  | object fs =>
    refine congrArg Value.object ?_
    show Fields.modify baseKey _ (Fields.modify baseKey _ fs) = Fields.modify baseKey _ (Fields.modify baseKey _ fs)
    rw [Fields.modify_modify, Fields.modify_modify]
    have hrow : ∀ row, Value.eachEntry (renameShown σ) (Value.modifyAt (fun _ => o) [.key x.2] row) =
        Value.modifyAt (fun _ => renameShown σ o) [.key x.2] (Value.eachEntry (renameShown σ) row) :=
      eachEntry_putAt (f := renameShown σ) (v := o) (w := renameShown σ o) (fun _ => rfl) x.2
    exact Fields.modify_congr fun base _ => eachEntry_putAt hrow x.1 base
  | _ => rfl

theorem at?_renameBase (hk : k ≠ baseKey) (layers : Value) : (renameBase σ layers).at? [.key k] = layers.at? [.key k] := by
  have h : Place.Apart [.key baseKey] [.key k] := .inl (by simpa using Ne.symm hk)
  exact Value.at?_modifyAt_of_apart _ h layers

variable {σ}

theorem HasRows.renamed {rows : Fields} (h : HasRows layers rows) :
    HasRows (renameBase σ layers) (rows.map fun p => (p.1, Value.eachEntry (renameShown σ) p.2)) := by
  refine ⟨?_, ?_, fun p hp => ?_⟩
  · rw [renameBase, Value.at?_modifyAt_self, h.base]
    rfl
  · rw [List.map_map]
    exact h.nodup
  · obtain ⟨q, hq, rfl⟩ := List.mem_map.1 hp
    obtain ⟨fns, hfns, hnd⟩ := h.row q hq
    refine ⟨_, congrArg (Value.eachEntry (renameShown σ)) hfns, ?_⟩
    rw [List.map_map]
    exact hnd

theorem IsBaseLayer.renamed (h : IsBaseLayer layers) : IsBaseLayer (renameBase σ layers) := by
  obtain ⟨rows, hrows⟩ := h
  exact ⟨_, hrows.renamed⟩

theorem procedureNames_renameBase (h : IsBaseLayer layers) : procedureNames (renameBase σ layers) = procedureNames layers := by
  obtain ⟨rows, hrows⟩ := h
  rw [procedureNames, procedureNames, hrows.procedures, hrows.renamed.procedures, List.flatMap_map, List.map_flatMap, List.map_flatMap]
  refine List.flatMap_congr fun p hp => ?_
  obtain ⟨fns, hfns, -⟩ := hrows.row p hp
  simp only [rowProcedures, hfns, Value.eachEntry, Value.toFields, List.map_map, Function.comp_def]

end RenamedLayers

/-! ## Links -/

section RenamedLinks

variable {σ : String → String} {relations : List Relation}

theorem HasRelations.renamed (h : HasRelations layers relations) : HasRelations (renameBase σ layers) relations :=
  (at?_renameBase σ (by decide) layers).trans h

theorem attributeAt_renamed {y : ProcedureName} (h : layers.attributeAt (.text (procedurePath y)) (.text "groups") = .ok groups) :
    (renameBase σ layers).attributeAt (.text (procedurePath y)) (.text "groups") = .ok (renameGroups σ groups) := by
  simp only [Value.attributeAt, bind_ok, atPath_procedurePath] at h ⊢
  obtain ⟨o, ⟨hy, ho⟩, b, hb, h⟩ := h
  refine ⟨renameShown σ o, ⟨hy, ?_⟩, b, (has_renameShown "groups" o).trans hb, ?_⟩
  · rw [procedureAt?_renameBase, ho]
    rfl
  · cases b with
    | true =>
      have hentry := entry_groups_renameShown (σ := σ) (Value.entry_eq_ok_iff.2 (Value.item_eq_ok_iff.1 h))
      exact Value.item_eq_ok_iff.2 (Value.entry_eq_ok_iff.1 hentry)
    | false =>
      cases h
      rfl

theorem linkOf_renamed {named : Bool} {r : Relation} {y : ProcedureName} (hy : r.farPath d = procedurePath y) {k : Link}
    (h : linkOf layers d named r.toValue = .ok k) : linkOf (renameBase σ layers) d named r.toValue = .ok (k.renamed σ) := by
  have hpath : r.toValue.entry (d.far ++ "_path") = .ok (.text (procedurePath y)) := hy ▸ r.entry_farPath d
  simp only [linkOf, hpath, bind_ok, Except.ok.injEq, exists_eq_left'] at h ⊢
  obtain ⟨groups, hgroups, metadata, hm, name, hname, h⟩ := h
  refine ⟨_, attributeAt_renamed hgroups, metadata, hm, name, hname, ?_⟩
  cases named with
  | false =>
    simp only [Bool.false_eq_true, if_false, bind_ok, pure_ok] at h ⊢
    obtain ⟨elementName, he, table, ht, interface, hi, db, hd, rfl⟩ := h
    exact ⟨elementName, he, table, ht, interface, hi, db, hd, rfl⟩
  | true =>
    simp only [if_true, bind_ok, pure_ok] at h ⊢
    obtain ⟨n, hn, elementName, he, table, ht, interface, hi, db, hd, rfl⟩ := h
    exact ⟨n, hn, elementName, he, table, ht, interface, hi, db, hd, rfl⟩

theorem linksWhere_renamed (hrel : HasRelations layers relations) (hp : Paired relations) {named : Bool} {test : Value → Outcome Bool}
    (h : linksWhere layers d named test = .ok ks) : linksWhere (renameBase σ layers) d named test = .ok (ks.map (Link.renamed σ)) := by
  simp only [linksWhere, hrel.parts, hrel.renamed.parts, bind_ok, pure_ok, Except.ok.injEq, exists_eq_left'] at h ⊢
  obtain ⟨found, hfound, rfl⟩ := h
  refine ⟨found.map (List.map (Link.renamed σ)), ?_, List.map_flatten.symm⟩
  rw [mapM_ok, List.forall₂_map_left_iff] at hfound ⊢
  rw [List.forall₂_map_right_iff]
  refine (forall₂_mem hfound).imp ?_
  rintro r part ⟨hr, -, hpart⟩
  obtain ⟨b, hb, hpart⟩ := bind_ok.1 hpart
  refine bind_ok.2 ⟨b, hb, ?_⟩
  cases b with
  | false =>
    cases hpart
    rfl
  | true =>
    obtain ⟨k, hk, hpart⟩ := bind_ok.1 hpart
    cases hpart
    obtain ⟨y, hy⟩ := hp r hr d
    exact bind_ok.2 ⟨_, linkOf_renamed hy hk, rfl⟩

theorem links_renamed (hrel : HasRelations layers relations) (hp : Paired relations) (h : links layers d algo function = .ok ks) :
    links (renameBase σ layers) d algo function = .ok (ks.map (Link.renamed σ)) := by
  obtain ⟨path, hpath, h⟩ := bind_ok.1 h
  exact bind_ok.2 ⟨path, hpath, linksWhere_renamed hrel hp h⟩

theorem linksOfTable_renamed (hrel : HasRelations layers relations) (hp : Paired relations) {interface : Value}
    (h : linksOfTable layers d algo function interface = .ok ks) :
    linksOfTable (renameBase σ layers) d algo function interface = .ok (ks.map (Link.renamed σ)) := by
  obtain ⟨path, hpath, h⟩ := bind_ok.1 h
  exact bind_ok.2 ⟨path, hpath, linksWhere_renamed hrel hp h⟩

end RenamedLinks

/-! ## Grouping -/

/-- A state of grouping and one with other identifiers: those that were drawn and those that are still to come. -/
structure GroupState.Renamed (σ : String → String) (relations : List Relation) (s t : GroupState) : Prop where
  base : IsBaseLayer s.layers
  related : HasRelations s.layers relations
  layers : t.layers = renameBase σ s.layers
  ids : ∀ i, σ (identifier (s.nextId + i)) = identifier (t.nextId + i)

section RenamedGrouping

variable {σ : String → String} {relations : List Relation}

theorem change_renamed {f f' : Value → Outcome Value}
    (hf : ∀ {o o'}, f o = .ok o' → f' (renameShown σ o) = .ok (renameShown σ o')) (x : ProcedureName) :
    Mirrors (GroupState.Renamed σ relations) Eq (GroupStep.change (addressOf x) f) (GroupStep.change (addressOf x) f') := by
  intro s t u s' hR h
  obtain ⟨o, o', ho, ho', rfl⟩ := change_ok h
  have hnow : (addressOf x).object t.layers = .ok (renameShown σ o) := by
    rw [hR.layers, address_object_ok, procedureAt?_renameBase, ho]
    rfl
  refine ⟨(), { t with layers := (addressOf x).put (renameShown σ o') t.layers }, ?_, ⟨hR.base.put x o', ?_, ?_, hR.ids⟩, rfl⟩
  · rw [GroupStep.change, run_get_bind, run_lift_bind_of_ok hnow, run_lift_bind_of_ok (hf ho')]
    rfl
  · exact (at?_put_of_ne (by decide) x o' s.layers).trans hR.related
  · show (addressOf x).put _ t.layers = renameBase σ ((addressOf x).put o' s.layers)
    rw [renameBase_put, hR.layers]

theorem fresh_renamed : Mirrors (GroupState.Renamed σ relations) (fun uid uid' => uid' = σ uid) GroupStep.fresh GroupStep.fresh := by
  intro s t uid s' hR h
  obtain ⟨rfl, rfl⟩ := fresh_ok h
  refine ⟨identifier t.nextId, { t with nextId := t.nextId + 1 }, rfl, ⟨hR.base, hR.related, hR.layers, fun i => ?_⟩, (hR.ids 0).symm⟩
  have := hR.ids (i + 1)
  rwa [Nat.add_comm i, ← Nat.add_assoc, ← Nat.add_assoc] at this

theorem takeIn_renamed (g : Group) (x : ProcedureName) :
    Mirrors (GroupState.Renamed σ relations) Eq (takeIn g (addressOf x)) (takeIn (g.renamed σ) (addressOf x)) := by
  refine mirrors_get.bind fun s t hR => ?_
  refine (mirrors_lift (P := fun o o' => o' = renameShown σ o) fun o ho => ?_).bind ?_
  · refine ⟨_, ?_, rfl⟩
    rw [hR.layers, address_object_ok, procedureAt?_renameBase, address_object_ok.1 ho]
    rfl
  rintro o _ rfl
  refine (mirrors_lift (P := Eq) fun b hb => ⟨b, (joins_renamed o _).trans hb, rfl⟩).bind ?_
  rintro b _ rfl
  cases b with
  | false => exact mirrors_pure rfl
  | true => exact change_renamed addGroup_renamed x

def SameLinks (ks ks' : List Link) : Prop :=
  List.Forall₂ (fun k k' => k'.path = k.path ∧ ∃ y, k.path = .text (procedurePath y)) ks ks'

theorem links_mirrored (hp : Paired relations) {s t : GroupState} (hR : s.Renamed σ relations t) (d : Direction) (x : ProcedureName) :
    Mirrors (GroupState.Renamed σ relations) SameLinks (liftM (links s.layers d (.text x.1) (.text x.2)) : GroupStep _)
      (liftM (links t.layers d (.text x.1) (.text x.2)) : GroupStep _) := by
  refine mirrors_lift fun ks hks => ?_
  refine ⟨_, hR.layers ▸ links_renamed hR.related hp hks, ?_⟩
  rw [SameLinks, List.forall₂_map_right_iff]
  exact List.forall₂_same.2 fun k hk => ⟨rfl, links_path hp hR.related hks hk⟩

theorem walkChain_renamed (hp : Paired relations) (d : Direction) (g : Group) (fuel : Nat) (x : ProcedureName) :
    Mirrors (GroupState.Renamed σ relations) Eq (walkChain d g fuel (.text (procedurePath x)))
      (walkChain d (g.renamed σ) fuel (.text (procedurePath x))) := by
  induction fuel generalizing x with
  | zero => exact mirrors_throw _ _
  | succ fuel ih =>
    refine (mirrors_lift (P := fun a a' => a' = a ∧ a = addressOf x) fun a ha =>
      ⟨a, ha, rfl, (ofPath_procedurePath.1 ha).2⟩).bind ?_
    rintro _ _ ⟨rfl, rfl⟩
    refine (takeIn_renamed g x).bind fun _ _ _ => mirrors_get.bind fun s t hR => ?_
    refine (links_mirrored hp hR d x).bind fun ks ks' hks => Mirrors.forM hks ?_
    rintro k - k' ⟨hk, y, hy⟩
    rw [hk, hy]
    exact ih y

theorem walkGroup_renamed (hp : Paired relations) (g : Group) (x : ProcedureName) :
    Mirrors (GroupState.Renamed σ relations) Eq (walkGroup g (.text x.1) (.text x.2))
      (walkGroup (g.renamed σ) (.text x.1) (.text x.2)) := by
  refine (change_renamed addGroup_renamed x).bind fun _ _ _ => mirrors_get.bind fun s t hR => ?_
  have hbound : chainBound t.layers = chainBound s.layers := by
    rw [hR.layers, chainBound_eq hR.base, chainBound_eq hR.base.renamed, procedureNames_renameBase hR.base]
  have hchains : ∀ d ks ks', SameLinks ks ks' → Mirrors (GroupState.Renamed σ relations) Eq
      (ks.forM fun k => walkChain d g (chainBound s.layers) k.path)
      (ks'.forM fun k => walkChain d (g.renamed σ) (chainBound t.layers) k.path) := by
    intro d ks ks' hks
    refine Mirrors.forM hks ?_
    rintro k - k' ⟨hk, y, hy⟩
    rw [hk, hy, hbound]
    exact walkChain_renamed hp d g _ y
  refine (links_mirrored hp hR .incoming x).bind fun before before' hbefore => ?_
  refine (links_mirrored hp hR .outgoing x).bind fun after after' hafter => ?_
  exact (hchains _ _ _ hbefore).bind fun _ _ _ => hchains _ _ _ hafter

theorem startGroup_renamed (hp : Paired relations) (x : ProcedureName) :
    Mirrors (GroupState.Renamed σ relations) Eq (startGroup (.text x.1) (.text x.2)) (startGroup (.text x.1) (.text x.2)) := by
  refine (change_renamed withGroups_renamed x).bind fun _ _ _ => ?_
  refine fresh_renamed.bind ?_
  rintro uid _ rfl
  refine (mirrors_lift (P := Eq) fun a ha => ⟨a, ha, rfl⟩).bind ?_
  rintro algo _ rfl
  refine (mirrors_lift (P := Eq) fun a ha => ⟨a, ha, rfl⟩).bind ?_
  rintro function _ rfl
  cases GroupKind.ofFunction? function with
  | none => exact mirrors_pure rfl
  | some kind => exact walkGroup_renamed hp _ x

theorem joinCommonGroup_renamed (x : ProcedureName) : Mirrors (GroupState.Renamed σ relations) Eq (joinCommonGroup (.text x.1) (.text x.2))
      (joinCommonGroup (.text x.1) (.text x.2)) := by
  refine mirrors_get.bind fun s t hR => ?_
  refine (mirrors_lift (P := fun _ _ => True) fun o ho => ⟨renameShown σ o, ?_, trivial⟩).bind fun _ _ _ => ?_
  · show (addressOf x).object t.layers = _
    rw [hR.layers, address_object_ok, procedureAt?_renameBase, address_object_ok.1 ho]
    rfl
  refine fresh_renamed.bind ?_
  rintro uid _ rfl
  exact change_renamed addGroup_renamed x

end RenamedGrouping

theorem setGroups_renamed {settings settings' : Settings} {σ : String → String} {relations : List Relation}
    (hp : Paired relations) (hst : settings'.entry Setting.groupStrategy = settings.entry Setting.groupStrategy) :
    Mirrors (GroupState.Renamed σ relations) Eq (setGroups settings) (setGroups settings') := by
  rintro s t u s' hR h
  obtain ⟨rows, hrows⟩ := id hR.base
  have hrows' : HasRows t.layers _ := hR.layers ▸ hrows.renamed
  have hnames : procedureNames t.layers = procedureNames s.layers := by
    rw [hR.layers, procedureNames_renameBase hR.base]
  simp only [setGroups, run_parts] at h
  obtain ⟨strategy, hs, base, hbase, h⟩ := h
  obtain rfl : .object rows = base := ok_unique hrows.entry hbase
  rw [setGroups, run_lift_bind_of_ok (hst.trans hs), run_get_bind, run_lift_bind_of_ok hrows'.entry]
  have hsame : List.Forall₂ Eq (procedureNames s.layers) (procedureNames s.layers) := List.forall₂_same.2 fun _ _ => rfl
  split at h
  · next hfunctional =>
    rw [if_pos hfunctional, forEachFunction_eq hrows', hnames]
    rw [forEachFunction_eq hrows] at h
    exact Mirrors.forM hsame (by rintro x - _ rfl; exact startGroup_renamed hp x) hR h
  · next hfunctional =>
    rw [if_neg hfunctional, forEachFunction_eq hrows', hnames]
    rw [forEachFunction_eq hrows] at h
    exact Mirrors.forM hsame (by rintro x - _ rfl; exact joinCommonGroup_renamed x) hR h

end TraceArtifacts
