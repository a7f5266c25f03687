import TraceArtifacts.Proofs.Typing

/-!
# Proofs: preparing a call more than once

A call that is no block is processed from what was traced and stays as it is.
-/

namespace TraceArtifacts

variable {ins outs ts : List Value} {p : Prepared} {settings : Settings} {key : String}
  {algo call call' function statements t u v w : Value}

/-! ## Preparing a call -/

def Unblocked (call : Value) : Prop :=
  call.has "auto" = .ok false ∨ ∃ statements, call.entryOr "sql" (.list []) = .ok statements ∧
    joinMembers statements (.text "\n") (.text "") = .ok ""

/-- A call that is one block, with the inputs and the outputs of its first group. -/
structure BlockOf (call : Value) (ins outs : List Value) : Prop where
  text : ∃ statements block, call.entryOr "sql" (.list []) = .ok statements ∧
    joinMembers statements (.text "\n") (.text "") = .ok block ∧ block ≠ ""
  group : ∃ auto entries, call.entry "auto" = .ok auto ∧ auto.members = .ok entries ∧ firstGroup false entries = .ok (ins, outs)

theorem BlockOf.not_unblocked (h : BlockOf call ins outs) : ¬ Unblocked call := by
  obtain ⟨statements, block, hs, hb, hne⟩ := h.text
  obtain ⟨auto, entries, hauto, -⟩ := h.group
  rintro (hnone | ⟨statements', hs', hb'⟩)
  · rw [Value.has_of_entry hauto] at hnone
    cases hnone
  · obtain rfl := ok_unique hs hs'
    exact hne (ok_unique hb hb')

section SameStatements

variable {keys : List String} {now : Value} (hs : call.SameBut keys now) (hsql : "sql" ∉ keys) (hauto : "auto" ∉ keys)
include hs hsql hauto

theorem Unblocked.sameBut (h : Unblocked call) : Unblocked now := by
  rw [Unblocked, hs.has hauto, hs.entryOr hsql]
  exact h

theorem BlockOf.sameBut (h : BlockOf call ins outs) : BlockOf now ins outs where
  text := by rw [hs.entryOr hsql]; exact h.text
  group := by rw [hs.entry hauto]; exact h.group

end SameStatements

def ExtendedBy (ins : List Value) (w v : Value) : Prop :=
  ins = [] ∧ v = w ∨ ∃ xs, w = .list xs ∧ v = .list (xs ++ ins)

theorem ExtendedBy.members (h : ExtendedBy ins w v) (hw : w.members = .ok ts) : v.members = .ok (ts ++ ins) := by
  rcases h with ⟨rfl, rfl⟩ | ⟨xs, rfl, rfl⟩
  · rw [hw, List.append_nil]
  · cases hw
    rfl

/-- What a call is processed from, if it is no block: all that was traced. -/
structure PreparedPlain (call : Value) (p : Prepared) : Prop where
  plain : Unblocked call
  inputs : call.entryOr "input_tables" (.list []) = .ok p.inputTables
  outputs : call.entryOr "output_tables" (.list []) = .ok p.outputTables
  vars : call.entryOr "output_vars" (.list []) = .ok p.outputVars
  statements : call.entryOr "sql" (.list []) = .ok p.statements

/-- What a call is processed from, if it is a block: the inputs of its first group come to the traced ones, in the trace too if
there are traced ones, and the traced outputs that its outputs name are taken. -/
structure PreparedBlock (call : Value) (p : Prepared) (call' : Value) (ins outs : List Value) : Prop where
  block : BlockOf call ins outs
  inputs : ∃ w, call.entryOr "input_tables" (.list []) = .ok w ∧ ExtendedBy ins w p.inputTables ∧
    call'.at? [.key "input_tables"] = (call.at? [.key "input_tables"]).map fun _ => p.inputTables
  outputs : ∃ tables found, call.entryOr "output_tables" (.list []) = .ok tables ∧
    outs.mapM (matchingOutputs tables) = .ok found ∧ p.outputTables = .list found.flatten

/-- What becomes of a call and what it is processed from. -/
structure PreparedAs (call : Value) (p : Prepared) (call' : Value) : Prop where
  functions : call.entryOr "function" (.list []) = .ok p.functions
  rest : call.SameBut ["input_tables", "output_vars"] call'
  parts : call' = call ∧ PreparedPlain call p ∨ ∃ ins outs, PreparedBlock call p call' ins outs

theorem Value.SameBut.isObject {keys : List String} (h : v.SameBut keys w) : ∃ fs, w = .object fs := by
  obtain ⟨-, gs, -, rfl, -⟩ := h
  exact ⟨gs, rfl⟩

theorem Value.SameBut.at? {keys : List String} (h : v.SameBut keys w) {k : String} (hk : k ∉ keys) (rest : Place) :
    w.at? (.key k :: rest) = v.at? (.key k :: rest) := by
  obtain ⟨fs, gs, rfl, rfl, h⟩ := h
  rw [Value.at?_key, Value.at?_key, h k hk]

theorem Value.entryOr_at? (fs : Fields) (k : String) (d : Value) :
    (Value.object fs).entryOr k d = .ok (((Value.object fs).at? [.key k]).getD d) := by
  rw [Value.entryOr_object, Value.at?_key]
  cases fs.lookup k <;> rfl

theorem onTraced_record {c : Change α} {fs : Fields} {a : α} (h : onTraced key c (.object fs) = .ok (a, v) call') :
    (Value.object fs).SameBut [key] call' ∧ call'.at? [.key key] = ((Value.object fs).at? [.key key]).map (fun _ => v) ∧
      ∃ w, (Value.object fs).entryOr key (.list []) = .ok w ∧ c w = .ok a v := by
  rcases onTraced_ok h with ⟨w, hw, hc, rfl⟩ | ⟨hnone, hc, rfl⟩
  · refine ⟨Value.sameBut_putAt fs key v, Value.at?_modifyAt_self .., w, ?_, hc⟩
    obtain ⟨_, he, hfs⟩ := Value.entry_ok.1 (Value.entry_eq_ok_iff.2 hw)
    cases he
    rw [Value.entryOr_object, hfs]
    rfl
  · rw [Value.has_object, Except.ok.injEq, Option.isSome_eq_false_iff, Option.isNone_iff_eq_none] at hnone
    refine ⟨.refl _ fs, ?_, .list [], ?_, hc⟩
    · rw [Value.at?_key, hnone]
      rfl
    · rw [Value.entryOr_object, hnone]
      rfl

theorem append_extended {u : Unit} (h : (do if !ins.isEmpty then Change.apply (·.append ins) : Change Unit) w = .ok u v) :
    ExtendedBy ins w v := by
  split at h
  · simp only [Change.apply, run_parts, run_set_ok] at h
    obtain ⟨_, hv, rfl⟩ := h
    cases w with
    | list xs => exact .inr ⟨xs, rfl, (Except.ok.inj hv).symm⟩
    | _ => cases hv
  · next hempty =>
    cases h
    exact .inl ⟨List.isEmpty_iff.1 (by simpa using hempty), rfl⟩

theorem prepare_as {fs : Fields} (h : prepare (.object fs) = .ok p call') : PreparedAs (.object fs) p call' := by
  simp only [prepare, run_parts] at h
  obtain ⟨functions, hfunctions, statements, hstatements, ins, hins, outs, houts, vars, hvars, shares, -, b, hb, h⟩ := h
  split at h
  · next hno =>
    cases h
    obtain rfl : b = false := by simpa using hno
    exact ⟨hfunctions, .refl _ fs, .inl ⟨rfl, .inl hb, hins, houts, hvars, hstatements⟩⟩
  · obtain ⟨block, hblock, h⟩ := run_lift_bind_ok.1 h
    split at h
    · next hempty =>
      cases h
      subst hempty
      exact ⟨hfunctions, .refl _ fs, .inl ⟨rfl, .inr ⟨_, hstatements, hblock⟩, hins, houts, hvars, hstatements⟩⟩
    · next hne =>
      simp only [prepareBlock, run_parts, run_pure_ok, Prod.exists] at h
      obtain ⟨auto, hauto, entries, hentries, gin, gout, hgroup, _, inputTables, c1, h1, found, hfound, _, vars', c2, h2, rfl, rfl⟩ := h
      obtain ⟨hs1, hat1, w, hw, hext⟩ := onTraced_record h1
      obtain ⟨gs, rfl⟩ := hs1.isObject
      obtain ⟨hs2, -⟩ := onTraced_record h2
      refine ⟨hfunctions, (hs1.mono (by simp)).trans (hs2.mono (by simp)), .inr ⟨gin, gout, ?_, ?_, ?_⟩⟩
      · exact ⟨⟨statements, block, hstatements, hblock, hne⟩, auto, entries, hauto, hentries, hgroup⟩
      · exact ⟨w, hw, append_extended hext, (hs2.at? (by decide) []).trans hat1⟩
      · exact ⟨outs, found, houts, hfound, rfl⟩

/-- A call that is prepared again after its functions were noted gives the same outputs and at least the same inputs. -/
theorem PreparedAs.again {now now' : Value} {p' : Prepared} (h : PreparedAs call p call') (hs : call'.SameBut ["function"] now)
    (h' : PreparedAs now p' now') :
    p'.outputTables = p.outputTables ∧ ∀ ts, p.inputTables.members = .ok ts → ∃ added, p'.inputTables.members = .ok (ts ++ added) := by
  have hall : call.SameBut ["input_tables", "output_vars", "function"] now := (h.rest.mono (by simp)).trans (hs.mono (by simp))
  rcases h.parts with ⟨rfl, hplain⟩ | ⟨ins, outs, hblock⟩
  · rcases h'.parts with ⟨-, hplain'⟩ | ⟨ins', outs', hblock'⟩
    · have hins := hplain'.inputs
      have houts := hplain'.outputs
      rw [hs.entryOr (by decide)] at hins houts
      obtain hins := ok_unique hplain.inputs hins
      refine ⟨(ok_unique hplain.outputs houts).symm, fun ts hts => ⟨[], ?_⟩⟩
      rw [← hins, hts, List.append_nil]
    · exact absurd (hplain.plain.sameBut hs (by decide) (by decide)) hblock'.block.not_unblocked
  · have hnow := hblock.block.sameBut hall (by decide) (by decide)
    rcases h'.parts with ⟨-, hplain'⟩ | ⟨ins', outs', hblock'⟩
    · exact absurd hplain'.plain hnow.not_unblocked
    · obtain ⟨auto, entries, hauto, hentries, hgroup⟩ := hnow.group
      obtain ⟨auto', entries', hauto', hentries', hgroup'⟩ := hblock'.block.group
      obtain rfl := ok_unique hauto hauto'
      obtain rfl := ok_unique hentries hentries'
      obtain ⟨rfl, rfl⟩ := Prod.mk.inj (ok_unique hgroup hgroup')
      obtain ⟨tables, found, htables, hfound, hout⟩ := hblock.outputs
      obtain ⟨tables', found', htables', hfound', hout'⟩ := hblock'.outputs
      rw [hall.entryOr (by decide)] at htables'
      obtain rfl := ok_unique htables htables'
      obtain rfl := ok_unique hfound hfound'
      refine ⟨hout'.trans hout.symm, fun ts hts => ?_⟩
      obtain ⟨w, hw, hext, hat⟩ := hblock.inputs
      obtain ⟨w', hw', hext', -⟩ := hblock'.inputs
      obtain ⟨fs, rfl⟩ := hall.isObject
      obtain ⟨gs, rfl⟩ := hall.symm.isObject
      rw [Value.entryOr_at?] at hw hw'
      rw [hs.at? (by decide), hat] at hw'
      cases hkey : (Value.object gs).at? [.key "input_tables"] with
      -- the inputs of the group were added to what was traced, and are added to it again
      | some v =>
        rw [hkey] at hw'
        obtain rfl : p.inputTables = w' := Except.ok.inj hw'
        exact ⟨_, hext'.members hts⟩
      -- nothing was traced, so the inputs of the group are all there is
      | none =>
        rw [hkey] at hw hw'
        obtain rfl : .list [] = w := Except.ok.inj hw
        obtain rfl : .list [] = w' := Except.ok.inj hw'
        refine ⟨[], ?_⟩
        rw [hext'.members rfl, List.append_nil, ← hts, hext.members rfl]

/-! ## The selects of stored tables -/

def SameSelect (t u : Value) : Prop := u.entry "select" = t.entry "select"

theorem SameSelect.trans (h1 : SameSelect t u) (h2 : SameSelect u v) : SameSelect t v := Eq.trans h2 h1

def SameSelects (v w : Value) : Prop :=
  ∃ ts us, v.members = .ok ts ∧ w.members = .ok us ∧ List.Forall₂ SameSelect ts us

theorem sameSelects_refl (h : v.members = .ok ts) : SameSelects v v := ⟨ts, ts, h, h, List.forall₂_same.2 fun _ _ => rfl⟩

theorem SameSelects.trans (h1 : SameSelects u v) (h2 : SameSelects v w) : SameSelects u w := by
  obtain ⟨ts, us, hts, hus, h1⟩ := h1
  obtain ⟨us', vs, hus', hvs, h2⟩ := h2
  obtain rfl := ok_unique hus hus'
  exact ⟨ts, vs, hts, hvs, forall₂_comp .trans h1 h2⟩

theorem sameSelect_withEntries (t : Value) {entries : Fields} (h : "select" ∉ entries.map Prod.fst) :
    SameSelect t (t.withEntries entries) := by
  cases t with
  | object fs =>
    show Value.entry (.object _) _ = _
    rw [Value.entry_object, Value.entry_object, lookup_foldl_set_of_not_mem h]
  | _ => rfl

theorem nameTable_select (h : nameTable settings algo function t = .ok u) : SameSelect t u := by
  obtain ⟨b, -, h⟩ := bind_ok.1 h
  cases b with
  | false =>
    cases h
    rfl
  | true =>
    simp only [if_not_true, bind_ok, pure_ok] at h
    obtain ⟨_, -, _, -, _, -, _, -, _, -, _, -, rfl⟩ := h
    exact sameSelect_withEntries t (by simp)

theorem foldlM_noteStatement_entry (hkey : key ∉ ["in_sql"]) {statements : List Value} (h : statements.foldlM noteStatement t = .ok u) :
    u.entry key = t.entry key :=
  foldlM_noteStatement_keeps (P := fun v => v.entry key = t.entry key)
    (fun hset ht => ((Value.sameBut_setEntry hset).entry hkey).trans ht) h rfl

theorem extendTable_select (h : extendTable settings algo function statements t = .ok u) : SameSelect t u := by
  simp only [extendTable, bind_ok] at h
  obtain ⟨t1, h1, ss, -, h⟩ := h
  exact (nameTable_select h1).trans (foldlM_noteStatement_entry (by decide) h)

theorem extendedIf_select (h : extendedIf (extendTables settings algo function statements) v = .ok w) {us : List Value}
    (hw : w.members = .ok us) : SameSelects v w := by
  unfold extendedIf at h
  split at h
  · simp only [extendTables, bind_ok, pure_ok] at h
    obtain ⟨ts, hts, us', hus, rfl⟩ := h
    exact ⟨ts, us', hts, rfl, (mapM_ok.1 hus).imp fun t u hu => extendTable_select hu⟩
  · cases h
    exact sameSelects_refl hw

theorem sameSelects_modifyAt (hv : v.members = .ok ts) (i : Nat) {entries : Fields} (h : "select" ∉ entries.map Prod.fst) :
    SameSelects v (v.modifyAt (·.withEntries entries) [.position i]) := by
  cases v with
  | list xs =>
    refine ⟨xs, _, rfl, rfl, List.forall₂_iff_get.2 ⟨by simp, fun j hj hj' => ?_⟩⟩
    simp only [List.get_eq_getElem, List.getElem_modify]
    split
    · exact sameSelect_withEntries _ h
    · rfl
  | _ => exact sameSelects_refl hv

theorem noteAll_select {synonymOf : Value → Outcome (Option Synonym)} {v' : Value} {synonyms : List Synonym}
    (h : Synonym.noteAll synonymOf v = .ok synonyms v') : SameSelects v v' := by
  have hrun := h
  simp only [Synonym.noteAll, run_parts] at hrun
  obtain ⟨_, hnumbered, -⟩ := hrun
  obtain ⟨ms, hms, -⟩ := bind_ok.1 hnumbered
  refine (noteAll_run (P := SameSelects v) (fun s i hw => ?_) h (sameSelects_refl hms)).1
  obtain ⟨-, us, -, hus, -⟩ := id hw
  exact hw.trans (sameSelects_modifyAt hus i (by simp))

theorem buildBase_select {functions functions' : Value} {b : BaseParts}
    (h : buildBase settings algo function p functions = .ok b functions') :
    SameSelects p.inputTables b.inputTables ∧ SameSelects p.outputTables b.outputTables := by
  obtain ⟨ins, _, _, hins, houts, -, -, hn, -, hstatements⟩ := buildBase_ok.1 h
  simp only [baseStatements, arrangeStatements, bind_ok] at hstatements
  obtain ⟨_, -, _, -, _, -, _, ⟨_, -, _, -, us, hus, -⟩, -⟩ := hstatements
  have hnoted := noteAll_select hn
  obtain ⟨ts, -, hts, -⟩ := id hnoted
  exact ⟨(extendedIf_select hins hts).trans hnoted, extendedIf_select houts hus⟩

end TraceArtifacts
