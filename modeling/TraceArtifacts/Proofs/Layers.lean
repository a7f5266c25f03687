import TraceArtifacts.Proofs.Places
import TraceArtifacts.Session
import Mathlib.Data.List.Nodup

/-!
# Proofs: the base layer as a table of procedures

A base layer is a record of records, without a key twice.
-/

namespace TraceArtifacts

variable {rows : Fields} {x y : ProcedureName} {layers o o' : Value}

abbrev ProcedureName := String × String

def procedurePlace (x : ProcedureName) : Place := [.key baseKey, .key x.1, .key x.2]

def addressOf (x : ProcedureName) : Address := { algo := .text x.1, function := .text x.2 }

def procedureAt? (layers : Value) (x : ProcedureName) : Option Value :=
  layers.at? (procedurePlace x)

def procedureNames (layers : Value) : List ProcedureName :=
  (proceduresOf layers).map fun p => (p.1, p.2.1)

/-- The rows of a base layer: its algorithms, each with the record of its functions. -/
structure HasRows (layers : Value) (rows : Fields) : Prop where
  base : layers.at? [.key baseKey] = some (.object rows)
  nodup : (rows.map Prod.fst).Nodup
  row : ∀ p ∈ rows, ∃ fns : Fields, p.2 = .object fns ∧ (fns.map Prod.fst).Nodup

def IsBaseLayer (layers : Value) : Prop := ∃ rows, HasRows layers rows

/-! ## Reading a base layer -/

def rowProcedures (p : String × Value) : List (String × String × Value) :=
  p.2.toFields.map fun q => (p.1, q.1, q.2)

theorem HasRows.isRecord (h : HasRows layers rows) : ∃ fs, layers = .object fs ∧ fs.lookup baseKey = some (.object rows) :=
  Value.entry_ok.1 (Value.entry_eq_ok_iff.2 h.base)

theorem HasRows.entry (h : HasRows layers rows) : layers.entry baseKey = .ok (.object rows) := Value.entry_eq_ok_iff.2 h.base

theorem HasRows.procedures (h : HasRows layers rows) : proceduresOf layers = rows.flatMap rowProcedures := by
  obtain ⟨fs, rfl, hb⟩ := h.isRecord
  show ((((fs.lookup baseKey).getD .null).toFields).flatMap _) = _
  rw [hb]
  rfl

theorem mem_proceduresOf (h : IsBaseLayer layers) {a f : String} :
    (a, f, o) ∈ proceduresOf layers ↔ procedureAt? layers (a, f) = some o := by
  obtain ⟨rows, h⟩ := h
  obtain ⟨fs, rfl, hb⟩ := h.isRecord
  rw [h.procedures]
  simp only [List.mem_flatMap, rowProcedures, List.mem_map, Prod.mk.injEq, procedureAt?,
    procedurePlace, Value.at?_key, hb, Option.bind_some]
  constructor
  · rintro ⟨⟨a', v⟩, hp, ⟨f', o'⟩, hq, rfl, rfl, rfl⟩
    obtain ⟨fns, rfl, hnd⟩ := h.row _ hp
    rw [Fields.lookup_of_mem h.nodup hp]
    show (fns.lookup f').bind (Value.at? []) = some o'
    rw [Fields.lookup_of_mem hnd hq]
    rfl
  · intro ho
    cases hr : rows.lookup a with
    | none => simp [hr] at ho
    | some v =>
      obtain ⟨fns, rfl, hnd⟩ := h.row _ (Fields.mem_of_lookup hr)
      simp only [hr, Option.bind_some, Value.at?_key] at ho
      cases hf : fns.lookup f with
      | none => simp [hf] at ho
      | some w =>
        obtain rfl : w = o := by simpa [hf, Value.at?] using ho
        exact ⟨(a, .object fns), Fields.mem_of_lookup hr, (f, w), Fields.mem_of_lookup hf, rfl, rfl, rfl⟩

theorem mem_procedureNames (h : IsBaseLayer layers) : x ∈ procedureNames layers ↔ ∃ o, procedureAt? layers x = some o := by
  obtain ⟨a, f⟩ := x
  simp only [procedureNames, List.mem_map, Prod.mk.injEq, Prod.exists]
  constructor
  · rintro ⟨a', f', o, ho, rfl, rfl⟩
    exact ⟨o, (mem_proceduresOf h).1 ho⟩
  · rintro ⟨o, ho⟩
    exact ⟨a, f, o, (mem_proceduresOf h).2 ho, rfl, rfl⟩

theorem procedureNames_nodup (h : IsBaseLayer layers) : (procedureNames layers).Nodup := by
  obtain ⟨rows, h⟩ := h
  rw [procedureNames, h.procedures, List.map_flatMap]
  have hnd := h.nodup
  have hrow := h.row
  clear h
  induction rows with
  | nil => exact List.nodup_nil
  | cons p rows ih =>
    simp only [List.map_cons, List.nodup_cons] at hnd
    rw [List.flatMap_cons]
    refine List.nodup_append.2 ⟨?_, ih hnd.2 fun q hq => hrow q (.tail _ hq), ?_⟩
    · obtain ⟨fns, hp, hfns⟩ := hrow p (.head _)
      rw [rowProcedures, hp, List.map_map]
      refine List.Nodup.of_map Prod.snd ?_
      rw [List.map_map]
      exact hfns
    · intro x hx y hy hxy
      subst hxy
      obtain ⟨q, hq, hxq⟩ := List.mem_flatMap.1 hy
      apply hnd.1
      simp only [rowProcedures, List.map_map, List.mem_map, Function.comp] at hx hxq
      obtain ⟨b, -, rfl⟩ := hx
      obtain ⟨c, -, hc⟩ := hxq
      rw [← (Prod.mk.inj hc).1]
      exact List.mem_map.2 ⟨q, hq, rfl⟩

theorem address_object_ok : (addressOf x).object layers = .ok o ↔ procedureAt? layers x = some o := by
  simp only [Address.object, bind_ok, addressOf, procedureAt?, procedurePlace, Value.entry_eq_ok_iff, Value.item_eq_ok_iff]
  rw [Value.at?_cons _ [.key x.1, .key x.2], Option.bind_eq_some_iff]
  simp only [Value.at?_cons _ [.key x.2], Option.bind_eq_some_iff]

/-! ## Going through a base layer -/

section Rows

variable {m : Type → Type} [Monad m] [LawfulMonad m]

theorem forM_rows {row : String × Value → m Unit} {cell : String × String × Value → m Unit}
    (h : ∀ p ∈ rows, row p = forM (rowProcedures p) cell) :
    forM rows row = forM (rows.flatMap rowProcedures) cell := by
  induction rows with
  | nil => rfl
  | cons p rows ih =>
    rw [List.forM_cons, List.flatMap_cons, List.forM_append, h p (.head _), ih fun q hq => h q (.tail _ hq)]

theorem mapM_rows {row : String × Value → m (List (List β))}
    {cell : String × String × Value → m (List β)}
    (h : ∀ p ∈ rows, row p = (rowProcedures p).mapM cell) :
    (do return ((← rows.mapM row).map List.flatten).flatten) = (do return (← (rows.flatMap rowProcedures).mapM cell).flatten) := by
  induction rows with
  | nil => simp
  | cons p rows ih =>
    have ih' := ih fun q hq => h q (.tail _ hq)
    simp only [bind_pure_comp] at ih' ⊢
    simp only [List.mapM_cons, List.flatMap_cons, List.mapM_append, h p (.head _),
      map_bind, bind_pure_comp, Functor.map_map, List.map_cons, List.flatten_cons,
      List.flatten_append]
    congr 1
    funext found
    have := congrArg (fun x => (fun l => found.flatten ++ l) <$> x) ih'
    simpa only [Functor.map_map] using this

end Rows

theorem HasRows.item (h : HasRows layers rows) {p : String × Value} (hp : p ∈ rows) : (Value.object rows).item (.text p.1) = .ok p.2 := by
  rw [Value.item_object, Fields.lookup_of_mem h.nodup hp]
  rfl

theorem members_object (fs : Fields) : (Value.object fs).members = .ok (fs.map fun f => Value.text f.1) := rfl

theorem forEachFunction_eq {σ : Type} (h : HasRows layers rows) (step : Value → Value → EStateM Fault σ Unit) :
    forEachFunction (.object rows) step = (procedureNames layers).forM fun x => step (.text x.1) (.text x.2) := by
  unfold forEachFunction
  rw [members_object]
  rw [procedureNames, h.procedures]
  simp only [lift_ok_eq, pure_bind, List.forM_eq_forM, List.forM_map]
  refine forM_rows (m := EStateM Fault σ) fun p hp => ?_
  obtain ⟨fns, hfns, -⟩ := h.row p hp
  rw [h.item hp, rowProcedures, hfns]
  simp only [lift_ok_eq, pure_bind, members_object, List.forM_map]
  rfl

theorem gatherFunctions_eq (h : HasRows layers rows) (ask : Value → Value → Value → Outcome (List α)) : gatherFunctions (.object rows) ask =
      (do return (← (proceduresOf layers).mapM fun p =>
        ask (.text p.1) (.text p.2.1) p.2.2).flatten) := by
  unfold gatherFunctions
  rw [members_object, h.procedures]
  show (do return ((← ((rows.map fun f : String × Value => Value.text f.1).mapM (m := Outcome) _)).map List.flatten).flatten) = _
  rw [List.mapM_map]
  refine mapM_rows (m := Outcome) fun p hp => ?_
  obtain ⟨fns, hfns, hnd⟩ := h.row p hp
  rw [Function.comp, h.item hp, rowProcedures, hfns]
  show (fns.map fun f : String × Value => Value.text f.1).mapM (m := Outcome) _ = _
  rw [List.mapM_map, Value.toFields, List.mapM_map]
  refine mapM_congr_mem fun q hq => ?_
  simp only [Function.comp]
  rw [Value.item_object, Fields.lookup_of_mem hnd hq]
  rfl

/-! ## Putting a procedure in place -/

theorem procedurePlace_apart (h : x ≠ y) : (procedurePlace x).Apart (procedurePlace y) := by
  by_cases h1 : x.1 = y.1
  · have h2 : x.2 ≠ y.2 := fun e => h (Prod.ext h1 e)
    exact .inr (.inr (.inl (by simpa using h2)))
  · exact .inr (.inl (by simpa using h1))

theorem procedureAt?_put_self (o' : Value) (h : procedureAt? layers x = some o) : procedureAt? ((addressOf x).put o' layers) x = some o' :=
  Value.at?_putAt_self o' h

theorem procedureAt?_put_ne (h : y ≠ x) (o layers : Value) : procedureAt? ((addressOf x).put o layers) y = procedureAt? layers y :=
  Value.at?_modifyAt_of_apart _ (procedurePlace_apart (Ne.symm h)) layers

theorem put_self (h : procedureAt? layers x = some o) : (addressOf x).put o layers = layers := Value.putAt_self h

theorem at?_put_of_ne {k : String} (hk : k ≠ baseKey) (x : ProcedureName) (o layers : Value) :
    ((addressOf x).put o layers).at? [.key k] = layers.at? [.key k] := by
  have h : (procedurePlace x).Apart [.key k] := .inl (by simpa using Ne.symm hk)
  exact Value.at?_modifyAt_of_apart _ h layers

theorem HasRows.put (h : HasRows layers rows) (x : ProcedureName) (o : Value) : HasRows ((addressOf x).put o layers)
      (Fields.modify x.1 (Value.modifyAt (fun _ => o) [.key x.2]) rows) := by
  obtain ⟨fs, rfl, hb⟩ := h.isRecord
  refine ⟨?_, ?_, ?_⟩
  · show Value.at? [.key baseKey] (.object (Fields.modify baseKey _ fs)) = _
    rw [Value.at?_key, Fields.lookup_modify, if_pos rfl, hb]
    rfl
  · rw [Fields.keys_modify]
    exact h.nodup
  · intro p hp
    rcases Fields.mem_modify hp with hp | ⟨v, hv, rfl⟩
    · exact h.row p hp
    · obtain ⟨fns, rfl, hnd⟩ := h.row _ hv
      exact ⟨_, rfl, by rw [Fields.keys_modify]; exact hnd⟩

theorem IsBaseLayer.put (h : IsBaseLayer layers) (x : ProcedureName) (o : Value) : IsBaseLayer ((addressOf x).put o layers) := by
  obtain ⟨rows, h⟩ := h
  exact ⟨_, h.put x o⟩

theorem procedureNames_put (h : IsBaseLayer layers) (x : ProcedureName) (o : Value) :
    procedureNames ((addressOf x).put o layers) = procedureNames layers := by
  obtain ⟨rows, h⟩ := h
  rw [procedureNames, procedureNames, h.procedures, (h.put x o).procedures]
  have hrow := h.row
  clear h
  -- the row of the algorithm keeps its keys, and all other rows stay
  induction rows with
  | nil => rfl
  | cons p rows ih =>
    obtain ⟨a, v⟩ := p
    have ih' := ih fun q hq => hrow q (.tail _ hq)
    obtain ⟨fns, hfns, -⟩ := hrow (a, v) (.head _)
    simp only at hfns
    subst hfns
    by_cases ha : a = x.1
    · simp only [Fields.modify, ha, if_true, List.flatMap_cons, List.map_append]
      congr 1
      have hkeys := Fields.keys_modify x.2 (Value.modifyAt (fun _ => o) []) fns
      have := congrArg (List.map fun f => (x.1, f)) hkeys
      rw [List.map_map, List.map_map] at this
      simp only [rowProcedures, List.map_map]
      exact this
    · simp only [Fields.modify, ha, if_false, List.flatMap_cons, List.map_append, ih']

/-! ## Layers with the same base layer -/

section SameBase

variable {layers' : Value} (h : layers'.at? [.key baseKey] = layers.at? [.key baseKey])
include h

theorem proceduresOf_congr : proceduresOf layers' = proceduresOf layers := by
  have hfields : ∀ v : Value, v.fieldsAt baseKey = ((v.at? [.key baseKey]).getD .null).toFields := by
    intro v
    cases v with
    | object fs =>
      show ((fs.lookup baseKey).getD .null).toFields = _
      rw [Value.at?_key]
      cases fs.lookup baseKey <;> rfl
    | _ => rfl
  rw [proceduresOf, proceduresOf, hfields, hfields, h]

theorem procedureNames_congr : procedureNames layers' = procedureNames layers := by
  rw [procedureNames, procedureNames, proceduresOf_congr h]

theorem procedureAt?_congr (x : ProcedureName) : procedureAt? layers' x = procedureAt? layers x := by
  rw [procedureAt?, procedureAt?, procedurePlace, Value.at?_cons, h, ← Value.at?_cons]

theorem IsBaseLayer.congr (hb : IsBaseLayer layers) : IsBaseLayer layers' := by
  obtain ⟨rows, hb⟩ := hb
  exact ⟨rows, h.trans hb.base, hb.nodup, hb.row⟩

end SameBase

/-! ## Layers that are alike -/

/-- The same relations and the same procedures, but for what these have under some keys. -/
structure Alike (keys : List String) (layers layers' : Value) : Prop where
  base : IsBaseLayer layers
  base' : IsBaseLayer layers'
  names : procedureNames layers' = procedureNames layers
  relations : layers'.at? [.key relationsKey] = layers.at? [.key relationsKey]
  procedure : ∀ {x o}, procedureAt? layers x = some o → ∃ o', procedureAt? layers' x = some o' ∧ o.SameBut keys o'

def HasRecords (layers : Value) : Prop :=
  ∀ {x o}, procedureAt? layers x = some o → ∃ fs, o = Value.object fs

namespace Alike

variable {keys : List String} {layers' layers'' : Value}

theorem refl (keys : List String) (hb : IsBaseLayer layers) (hr : HasRecords layers) : Alike keys layers layers where
  base := hb
  base' := hb
  names := rfl
  relations := rfl
  procedure := fun {x o} ho => by
    obtain ⟨fs, rfl⟩ := hr ho
    exact ⟨_, ho, .refl keys fs⟩

theorem of_at (keys : List String) (hb : IsBaseLayer layers) (hr : HasRecords layers)
    (hbase : layers'.at? [.key baseKey] = layers.at? [.key baseKey])
    (hrel : layers'.at? [.key relationsKey] = layers.at? [.key relationsKey]) :
    Alike keys layers layers' where
  base := hb
  base' := hb.congr hbase
  names := procedureNames_congr hbase
  relations := hrel
  procedure := fun {x o} ho => by
    rw [procedureAt?_congr hbase]
    obtain ⟨fs, rfl⟩ := hr ho
    exact ⟨_, ho, .refl keys fs⟩

theorem trans (h1 : Alike keys layers layers') (h2 : Alike keys layers' layers'') : Alike keys layers layers'' where
  base := h1.base
  base' := h2.base'
  names := h2.names.trans h1.names
  relations := h2.relations.trans h1.relations
  procedure := fun ho => by
    obtain ⟨o', ho', hs⟩ := h1.procedure ho
    obtain ⟨o'', ho'', hs'⟩ := h2.procedure ho'
    exact ⟨o'', ho'', hs.trans hs'⟩

theorem mono {keys' : List String} (h : Alike keys layers layers') (hsub : keys ⊆ keys') : Alike keys' layers layers' where
  base := h.base
  base' := h.base'
  names := h.names
  relations := h.relations
  procedure := fun ho => by
    obtain ⟨o', ho', hs⟩ := h.procedure ho
    exact ⟨o', ho', hs.mono hsub⟩

theorem procedure' (h : Alike keys layers layers') (ho' : procedureAt? layers' x = some o') :
    ∃ o, procedureAt? layers x = some o ∧ o.SameBut keys o' := by
  have hx : x ∈ procedureNames layers := by
    rw [← h.names]
    exact (mem_procedureNames h.base').2 ⟨o', ho'⟩
  obtain ⟨o, ho⟩ := (mem_procedureNames h.base).1 hx
  obtain ⟨o'', ho'', hs⟩ := h.procedure ho
  obtain rfl : o'' = o' := by rw [ho''] at ho'; exact Option.some.inj ho'
  exact ⟨o, ho, hs⟩

theorem symm (h : Alike keys layers layers') : Alike keys layers' layers where
  base := h.base'
  base' := h.base
  names := h.names.symm
  relations := h.relations.symm
  procedure := fun ho' => by
    obtain ⟨o, ho, hs⟩ := h.procedure' ho'
    exact ⟨o, ho, hs.symm⟩

theorem put (hb : IsBaseLayer layers) (hr : HasRecords layers) (ho : procedureAt? layers x = some o) (hs : o.SameBut keys o') :
    Alike keys layers ((addressOf x).put o' layers) where
  base := hb
  base' := hb.put x o'
  names := procedureNames_put hb x o'
  relations := at?_put_of_ne (by decide) x o' layers
  procedure := fun {y u} hu => by
    by_cases hy : y = x
    · subst hy
      obtain rfl : o = u := by rw [ho] at hu; exact Option.some.inj hu
      exact ⟨o', procedureAt?_put_self o' ho, hs⟩
    · rw [procedureAt?_put_ne hy]
      obtain ⟨fs, rfl⟩ := hr hu
      exact ⟨_, hu, .refl keys fs⟩

theorem hasRecords (h : Alike keys layers layers') : HasRecords layers' := by
  intro x o' ho'
  obtain ⟨o, -, fs, gs, -, rfl, -⟩ := h.procedure' ho'
  exact ⟨gs, rfl⟩

end Alike

end TraceArtifacts
