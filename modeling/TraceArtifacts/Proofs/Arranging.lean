import Mathlib.Data.List.DropRight
import TraceArtifacts.Proofs.Paths

/-!
# Proofs: the order of statements in a body

The assignments of inputs are put in one after the other, each behind the last declaration that stands there by then.
-/

namespace TraceArtifacts

variable {after before : List String} {k s : String} {t : Value}

/-! ## Assignments -/

def declares (s : String) : Bool := containsText s "DECLARE"

def creates (s : String) : Bool := containsText s "CREATE"

def inputAssignment (t : Value) : String :=
  t.textAt "transformed_name" ++ " = SELECT * FROM :" ++ t.textAt "interface_name"

def outputAssignment (t : Value) : String :=
  t.textAt "interface_name" ++ if (t.get "in_sql").isTruthy then " = SELECT * FROM :" ++ t.textAt "transformed_name"
    else " = " ++ t.textAt "select"

def variableAssignment (t : Value) : String :=
  "SELECT ( " ++ t.textAt "select" ++ " ) INTO " ++ t.textAt "interface_name" ++ " FROM DUMMY"

def HasTexts (keys : List String) (t : Value) : Prop := ∀ k ∈ keys, ∃ s, t.entry k = .ok (.text s)

def IsNamedInput (t : Value) : Prop := HasTexts ["transformed_name", "interface_name"] t

def IsNamedOutput (t : Value) : Prop :=
  ∃ v, t.entry "in_sql" = .ok v ∧ HasTexts ["interface_name", if v.isTruthy then "transformed_name" else "select"] t

def IsNamedVariable (t : Value) : Prop := HasTexts ["select", "interface_name"] t

theorem HasTexts.textEntry {keys : List String} (h : HasTexts keys t) (hk : k ∈ keys) : t.textEntry k = .ok (t.textAt k) := by
  obtain ⟨s, hs⟩ := h k hk
  rw [Value.textEntry, hs, Value.textAt, Value.get_of_entry hs]
  rfl

theorem textEntry_ok (h : t.textEntry k = .ok s) : t.entry k = .ok (.text s) := by
  obtain ⟨v, hv, hs⟩ := bind_ok.1 h
  cases v with
  | text r =>
    cases hs
    exact hv
  | _ => cases hs

theorem inputStatement_named (h : IsNamedInput t) : inputStatement t = .ok (inputAssignment t) := by
  rw [inputStatement, h.textEntry (by simp), h.textEntry (by simp)]
  rfl

theorem isNamedInput_of_ok (h : inputStatement t = .ok s) : IsNamedInput t := by
  simp only [inputStatement, bind_ok] at h
  obtain ⟨name, hname, interface, hinterface, -⟩ := h
  simp only [IsNamedInput, HasTexts, List.forall_mem_cons]
  exact ⟨⟨name, textEntry_ok hname⟩, ⟨interface, textEntry_ok hinterface⟩, nofun⟩

theorem outputStatement_named (h : IsNamedOutput t) : outputStatement t = .ok (outputAssignment t) := by
  obtain ⟨v, hv, htexts⟩ := h
  have hget : t.get "in_sql" = v := Value.get_of_entry hv _
  rw [outputStatement, hv, htexts.textEntry (by simp), outputAssignment, hget]
  cases hb : v.isTruthy with
  | true =>
    have hname := htexts.textEntry (k := "transformed_name") (by simp [hb])
    simp only [bind, Except.bind, hb, if_true, hname]
    rw [String.append_assoc]
    rfl
  | false =>
    have hselect := htexts.textEntry (k := "select") (by simp [hb])
    simp only [bind, Except.bind, hb, Bool.false_eq_true, if_false, hselect]
    rw [String.append_assoc]
    rfl

theorem isNamedOutput_of_ok (h : outputStatement t = .ok s) : IsNamedOutput t := by
  simp only [outputStatement, bind_ok] at h
  obtain ⟨v, hv, interface, hinterface, h⟩ := h
  refine ⟨v, hv, ?_⟩
  simp only [HasTexts, List.forall_mem_cons]
  refine ⟨⟨interface, textEntry_ok hinterface⟩, ?_, nofun⟩
  split at h
  · next hin =>
    obtain ⟨name, hname, -⟩ := bind_ok.1 h
    rw [if_pos hin]
    exact ⟨name, textEntry_ok hname⟩
  · next hout =>
    obtain ⟨select, hselect, -⟩ := bind_ok.1 h
    rw [if_neg hout]
    exact ⟨select, textEntry_ok hselect⟩

theorem variableStatement_named (h : IsNamedVariable t) : variableStatement t = .ok (variableAssignment t) := by
  rw [variableStatement, h.textEntry (by simp), h.textEntry (by simp)]
  rfl

theorem isNamedVariable_of_ok (h : variableStatement t = .ok s) : IsNamedVariable t := by
  simp only [variableStatement, bind_ok] at h
  obtain ⟨select, hselect, interface, hinterface, -⟩ := h
  simp only [IsNamedVariable, HasTexts, List.forall_mem_cons]
  exact ⟨⟨select, textEntry_ok hselect⟩, ⟨interface, textEntry_ok hinterface⟩, nofun⟩

/-! ## Behind the last declaration -/

def throughDeclarations (ss : List String) : List String := ss.rdropWhile fun s => !declares s

def behindDeclarations (ss : List String) : List String := ss.rtakeWhile fun s => !declares s

def putBehind (s : String) (ss : List String) : List String :=
  throughDeclarations ss ++ s :: behindDeclarations ss

theorem rdropWhile_append {p : α → Bool} (l r : List α) :
    (l ++ r).rdropWhile p = if r.rdropWhile p = [] then l.rdropWhile p else l ++ r.rdropWhile p := by
  simp only [List.rdropWhile, List.reverse_append, List.dropWhile_append, List.isEmpty_iff, List.reverse_eq_nil_iff]
  by_cases h : r.reverse.dropWhile p = []
  · simp [h]
  · simp [h]

theorem through_append_behind (ss : List String) : throughDeclarations ss ++ behindDeclarations ss = ss :=
  List.rdropWhile_append_rtakeWhile ..

theorem through_through (ss : List String) : throughDeclarations (throughDeclarations ss) = throughDeclarations ss :=
  List.rdropWhile_idempotent ..

theorem not_declares_behind {ss : List String} (hs : s ∈ behindDeclarations ss) : declares s = false := by
  simpa using List.mem_rtakeWhile_imp hs

theorem lengthToLast_texts (ss : List String) : lengthToLast (.text "DECLARE") (ss.map .text) = .ok (throughDeclarations ss).length := by
  induction ss with
  | nil => rfl
  | cons s ss ih =>
    have hcons : throughDeclarations (s :: ss) =
        if throughDeclarations ss = [] then throughDeclarations [s] else s :: throughDeclarations ss :=
      rdropWhile_append [s] ss
    have hone : throughDeclarations [s] = if declares s then [s] else [] := by
      rw [throughDeclarations, List.rdropWhile_singleton]
      cases declares s <;> rfl
    have hhere : (Value.text "DECLARE").isIn (.text s) = .ok (declares s) := rfl
    rw [List.map_cons, lengthToLast, hhere, ih, hcons, hone]
    cases throughDeclarations ss with
    | nil => cases declares s <;> rfl
    | cons r rest => rfl

theorem throughDeclarations_between (hbefore : throughDeclarations before = before) (hafter : ∀ s ∈ after, declares s = false)
    (ss : List String) : throughDeclarations (before ++ ss ++ after) = before ++ throughDeclarations ss := by
  have hnone : throughDeclarations after = [] := by
    rw [throughDeclarations, List.rdropWhile_eq_nil_iff]
    intro s hs
    rw [hafter s hs]
    rfl
  have hlast := rdropWhile_append (p := fun s => !declares s) (before ++ ss) after
  have hmid := rdropWhile_append (p := fun s => !declares s) before ss
  rw [← throughDeclarations, ← throughDeclarations, if_pos hnone] at hlast
  rw [← throughDeclarations, ← throughDeclarations] at hmid
  rw [hlast, ← throughDeclarations, hmid]
  by_cases h : throughDeclarations ss = []
  · rw [if_pos h, ← throughDeclarations, hbefore, h, List.append_nil]
  · rw [if_neg h]

/-! ## Putting assignments in -/

theorem addInput_texts (ht : IsNamedInput t) (hbefore : throughDeclarations before = before) (hafter : ∀ s ∈ after, declares s = false)
    (ss : List String) :
    addInput t (.ofTexts (before ++ ss ++ after)) = .ok (.ofTexts (before ++ putBehind (inputAssignment t) ss ++ after)) := by
  have hplace := throughDeclarations_between hbefore hafter ss
  have hsplit : before ++ ss ++ after = (before ++ throughDeclarations ss) ++ (behindDeclarations ss ++ after) := by
    rw [List.append_assoc before _ (_ ++ _), ← List.append_assoc _ _ after, through_append_behind, List.append_assoc]
  have htake : (before ++ ss ++ after).take (before ++ throughDeclarations ss).length =
      before ++ throughDeclarations ss := by rw [hsplit, List.take_left]
  have hdrop : (before ++ ss ++ after).drop (before ++ throughDeclarations ss).length =
      behindDeclarations ss ++ after := by rw [hsplit, List.drop_left]
  simp only [addInput, inputStatement_named ht, Value.ofTexts, Value.members, bind, Except.bind, lengthToLast_texts, hplace,
    ← List.map_take, ← List.map_drop, htake, hdrop]
  simp [putBehind, pure, Except.pure]

theorem addInputs_texts {ins : List Value} (hins : ∀ t ∈ ins, IsNamedInput t) (hbefore : throughDeclarations before = before)
    (hafter : ∀ s ∈ after, declares s = false) (ss : List String) :
    ins.foldlM (fun ss t => addInput t ss) (.ofTexts (before ++ ss ++ after)) =
      .ok (.ofTexts (before ++ (ins.map inputAssignment).foldl (fun ss s => putBehind s ss) ss ++ after)) := by
  induction ins generalizing ss with
  | nil => rfl
  | cons t ins ih =>
    rw [List.foldlM_cons, addInput_texts (hins t List.mem_cons_self) hbefore hafter]
    exact ih (fun t' ht' => hins t' (.tail _ ht')) _

theorem perm_putBehind (s : String) (ss : List String) : (putBehind s ss).Perm (s :: ss) := by
  have h : (putBehind s ss).Perm (s :: (throughDeclarations ss ++ behindDeclarations ss)) := List.perm_middle
  rwa [through_append_behind] at h

theorem perm_foldl_putBehind (added ss : List String) : (added.foldl (fun ss s => putBehind s ss) ss).Perm (added ++ ss) := by
  induction added generalizing ss with
  | nil => exact .refl _
  | cons s added ih =>
    refine (ih (putBehind s ss)).trans ?_
    refine ((perm_putBehind s ss).append_left added).trans ?_
    exact List.perm_middle

theorem foldlM_append_texts {add : Value → Value → Outcome Value} {text : Value → String} {ts : List Value}
    (hadd : ∀ t ∈ ts, ∀ ss : List Value, add t (.list ss) = .ok (.list (ss ++ [.text (text t)]))) (ss : List String) :
    ts.foldlM (fun ss t => add t ss) (.ofTexts ss) = .ok (.ofTexts (ss ++ ts.map text)) := by
  induction ts generalizing ss with
  | nil => rw [List.map_nil, List.append_nil]; rfl
  | cons t ts ih =>
    rw [List.foldlM_cons, Value.ofTexts, hadd t List.mem_cons_self]
    have hrest := ih (fun t' ht' => hadd t' (.tail _ ht')) (ss ++ [text t])
    rw [List.append_assoc, List.singleton_append] at hrest
    rw [List.map_cons, ← hrest, Value.ofTexts, List.map_append]
    rfl

theorem addOutput_named (h : IsNamedOutput t) (ss : List Value) :
    addOutput t (.list ss) = .ok (.list (ss ++ [.text (outputAssignment t)])) := by
  rw [addOutput, outputStatement_named h]
  rfl

theorem addVariable_named (h : IsNamedVariable t) (ss : List Value) :
    addVariable t (.list ss) = .ok (.list (ss ++ [.text (variableAssignment t)])) := by
  rw [addVariable, variableStatement_named h]
  rfl

/-! ## The order of the body -/

def createdFirst (ss : List String) : List String := ss.filter creates ++ ss.filter fun s => !creates s

theorem perm_createdFirst (ss : List String) : (createdFirst ss).Perm ss := List.filter_append_perm creates ss

theorem orderStatements_texts (ss : List String) : orderStatements (.ofTexts ss) = .ok ((createdFirst ss).map .text) := by
  have hmarks : (ss.map Value.text).mapM (fun s => do return (← s.has "CREATE", s) : Value → Outcome (Bool × Value)) =
      .ok (ss.map fun s => (creates s, .text s)) := by
    rw [mapM_ok, List.forall₂_map_left_iff, List.forall₂_map_right_iff]
    exact List.forall₂_same.2 fun _ _ => rfl
  simp only [orderStatements, Value.ofTexts, Value.members, bind, Except.bind, hmarks] at hmarks ⊢
  simp only [pure, Except.pure, createdFirst, List.filter_map, List.map_append, List.map_map]
  rfl

section Arranged

variable {inputs outputs vars : Value} {ins outs vs : List Value}

theorem arrangeStatements_texts (hi : inputs.members = .ok ins) (ho : outputs.members = .ok outs) (hv : vars.members = .ok vs)
    (hins : ∀ t ∈ ins, IsNamedInput t) (houts : ∀ t ∈ outs, IsNamedOutput t) (hvars : ∀ t ∈ vs, IsNamedVariable t)
    (ss : List String) :
    ∃ assigned, assigned.Perm (ins.map inputAssignment) ∧ arrangeStatements inputs outputs vars (.ofTexts ss) =
      .ok ((createdFirst (throughDeclarations ss ++ assigned ++ behindDeclarations ss ++ outs.map outputAssignment ++
        vs.map variableAssignment)).map .text) := by
  have hperm := perm_foldl_putBehind (ins.map inputAssignment) []
  rw [List.append_nil] at hperm
  have hinputs := addInputs_texts hins (through_through ss) (fun s (hs : s ∈ behindDeclarations ss) => not_declares_behind hs) []
  rw [List.append_nil, through_append_behind] at hinputs
  refine ⟨_, hperm, ?_⟩
  simp only [arrangeStatements, hi, ho, hv, bind, Except.bind, hinputs,
    foldlM_append_texts (fun t ht => addOutput_named (houts t ht)), foldlM_append_texts (fun t ht => addVariable_named (hvars t ht))]
  exact orderStatements_texts _

theorem perm_arranged (ss : List String) {assigned added rest : List String} (h : assigned.Perm added) :
    (createdFirst (throughDeclarations ss ++ assigned ++ behindDeclarations ss ++ rest)).Perm (ss ++ added ++ rest) := by
  refine (perm_createdFirst _).trans ((?_ : List.Perm _ _).append_right _)
  calc throughDeclarations ss ++ assigned ++ behindDeclarations ss
    _ |>.Perm (throughDeclarations ss ++ behindDeclarations ss ++ assigned) := by
      rw [List.append_assoc, List.append_assoc]
      exact List.perm_append_comm.append_left _
    _ |>.Perm (ss ++ added) := by
      rw [through_append_behind]
      exact h.append_left ss

theorem foldlM_ok_mem {f : β → α → Outcome β} {P : α → Prop} (hf : ∀ b a b', f b a = .ok b' → P a) {xs : List α} {b c : β}
    (h : xs.foldlM f b = .ok c) : ∀ a ∈ xs, P a := by
  induction xs generalizing b with
  | nil => exact nofun
  | cons x xs ih =>
    rw [List.foldlM_cons] at h
    obtain ⟨b', hb, h⟩ := bind_ok.1 h
    exact List.forall_mem_cons.2 ⟨hf b x b' hb, ih h⟩

theorem named_of_arrangeStatements {statements : Value} {r : List Value}
    (h : arrangeStatements inputs outputs vars statements = .ok r) : ∃ ins outs vs, inputs.members = .ok ins ∧
      outputs.members = .ok outs ∧ vars.members = .ok vs ∧ (∀ t ∈ ins, IsNamedInput t) ∧ (∀ t ∈ outs, IsNamedOutput t) ∧
      ∀ t ∈ vs, IsNamedVariable t := by
  simp only [arrangeStatements, bind_ok] at h
  obtain ⟨ins, hins, _, h1, outs, houts, _, h2, vs, hvs, _, h3, -⟩ := h
  refine ⟨ins, outs, vs, hins, houts, hvs, foldlM_ok_mem ?_ h1, foldlM_ok_mem ?_ h2, foldlM_ok_mem ?_ h3⟩
  · intro _ t _ h
    obtain ⟨s, hs, -⟩ := bind_ok.1 h
    exact isNamedInput_of_ok hs
  · intro _ t _ h
    obtain ⟨s, hs, -⟩ := bind_ok.1 h
    exact isNamedOutput_of_ok hs
  · intro _ t _ h
    obtain ⟨s, hs, -⟩ := bind_ok.1 h
    exact isNamedVariable_of_ok hs

end Arranged

/-- The body of a procedure in order. -/
theorem arrangeStatements_ordered (ss : List String) {ins outs vars : List Value} (hins : ∀ t ∈ ins, IsNamedInput t)
    (houts : ∀ t ∈ outs, IsNamedOutput t) (hvars : ∀ t ∈ vars, IsNamedVariable t) :
    ∃ assigned body : List String, assigned.Perm (ins.map inputAssignment) ∧
      body = throughDeclarations ss ++ assigned ++ behindDeclarations ss ++ outs.map outputAssignment ++ vars.map variableAssignment ∧
      arrangeStatements (.list ins) (.list outs) (.list vars) (.ofTexts ss) = .ok ((createdFirst body).map .text) ∧
      (createdFirst body).Perm (ss ++ ins.map inputAssignment ++ outs.map outputAssignment ++ vars.map variableAssignment) := by
  obtain ⟨assigned, hperm, hrun⟩ := @arrangeStatements_texts (.list ins) (.list outs) (.list vars) _ _ _ rfl rfl rfl hins houts hvars ss
  refine ⟨assigned, _, hperm, rfl, hrun, ?_⟩
  rw [List.append_assoc _ (outs.map _), List.append_assoc _ (outs.map _)]
  exact perm_arranged ss hperm

def namedTable (name interface : String) : Value :=
  .object [("transformed_name", .text name), ("interface_name", .text interface), ("in_sql", .bool true)]

def namedVariable (select interface : String) : Value :=
  .object [("select", .text select), ("interface_name", .text interface)]

/-- The name of the first input has the word of declarations in it, so the second one is assigned behind it. -/
theorem arrangeStatements_ordered_sample : (∀ t ∈ [namedTable "DECLARED" "a", namedTable "B" "b"], IsNamedInput t) ∧
      IsNamedOutput (namedTable "C" "c") ∧ IsNamedVariable (namedVariable "V" "v") ∧
      ∃ assigned body : List String, assigned.Perm ["DECLARED = SELECT * FROM :a", "B = SELECT * FROM :b"] ∧
        body = ["DECLARE X"] ++ assigned ++ ["CALL Y", "CREATE Z"] ++ ["c = SELECT * FROM :C"] ++ ["SELECT ( V ) INTO v FROM DUMMY"] ∧
        arrangeStatements (.list [namedTable "DECLARED" "a", namedTable "B" "b"]) (.list [namedTable "C" "c"])
          (.list [namedVariable "V" "v"]) (.ofTexts ["DECLARE X", "CALL Y", "CREATE Z"]) = .ok ((createdFirst body).map .text) := by
  have hins : ∀ t ∈ [namedTable "DECLARED" "a", namedTable "B" "b"], IsNamedInput t := by
    simp [IsNamedInput, HasTexts, namedTable, Value.entry_object, List.lookup_cons, need]
  have hout : IsNamedOutput (namedTable "C" "c") :=
    ⟨.bool true, rfl, by simp [HasTexts, namedTable, Value.isTruthy, Value.entry_object, List.lookup_cons, need]⟩
  have hvar : IsNamedVariable (namedVariable "V" "v") := by
    simp [IsNamedVariable, HasTexts, namedVariable, Value.entry_object, List.lookup_cons, need]
  obtain ⟨assigned, body, hperm, hbody, hrun, -⟩ := arrangeStatements_ordered ["DECLARE X", "CALL Y", "CREATE Z"] hins
    (show ∀ t ∈ [namedTable "C" "c"], _ by simpa using hout) (show ∀ t ∈ [namedVariable "V" "v"], _ by simpa using hvar)
  have hthrough : throughDeclarations ["DECLARE X", "CALL Y", "CREATE Z"] = ["DECLARE X"] := by decide
  have hbehind : behindDeclarations ["DECLARE X", "CALL Y", "CREATE Z"] = ["CALL Y", "CREATE Z"] := by decide
  rw [hthrough, hbehind] at hbody
  exact ⟨hins, hout, hvar, assigned, body, hperm, hbody, hrun⟩

end TraceArtifacts
