import TraceArtifacts.Proofs.SteadyCalls

/-!
# Proofs: what a block is processed from

The tables of a block are listed in groups, and the first group is the longest part at the start of the list in which no input comes
behind an output (`groupStart_isFirstGroup`).
-/

namespace TraceArtifacts

variable {entries tables : List Value} {a key n o s : String} {e table v w : Value}

/-! ## The first group -/

def isMarked (word : String) (entry : Value) : Bool := containsText (entry.textAt "auto_name") word

def InOrder (entries : List Value) : Prop :=
  entries.Pairwise fun e e' => isMarked "out_" e = true → isMarked "in_" e' = false

structure IsFirstGroup (entries group : List Value) : Prop where
  start : group <+: entries
  inOrder : InOrder group
  longest : ∀ other, other <+: entries → InOrder other → other <+: group

def groupStart : Bool → List Value → List Value
  | _, [] => []
  | outputSeen, e :: rest =>
      if outputSeen && isMarked "in_" e then [] else e :: groupStart (outputSeen || isMarked "out_" e) rest

theorem groupStart_start (b : Bool) (entries : List Value) : groupStart b entries <+: entries := by
  induction entries generalizing b with
  | nil => exact List.prefix_refl _
  | cons e rest ih =>
    rw [groupStart]
    split
    · exact List.nil_prefix
    · exact List.cons_prefix_cons.2 ⟨rfl, ih _⟩

theorem groupStart_inOrder (b : Bool) (entries : List Value) : InOrder (groupStart b entries) ∧
    (b = true → ∀ e ∈ groupStart b entries, isMarked "in_" e = false) := by
  induction entries generalizing b with
  | nil => exact ⟨.nil, nofun⟩
  | cons e rest ih =>
    rw [groupStart]
    split
    · exact ⟨.nil, nofun⟩
    · next hnot =>
      obtain ⟨horder, hnone⟩ := ih (b || isMarked "out_" e)
      refine ⟨List.pairwise_cons.2 ⟨fun e' he' hout => hnone (by simp [hout]) e' he', horder⟩, fun hb e' he' => ?_⟩
      rcases List.mem_cons.1 he' with rfl | he'
      · simpa [hb] using hnot
      · exact hnone (by simp [hb]) e' he'

theorem prefix_groupStart {b : Bool} {other : List Value} (hstart : other <+: entries) (horder : InOrder other)
    (hb : b = true → ∀ e ∈ other, isMarked "in_" e = false) : other <+: groupStart b entries := by
  induction entries generalizing b other with
  | nil =>
    rw [List.prefix_nil.1 hstart]
    exact List.nil_prefix
  | cons e rest ih =>
    cases other with
    | nil => exact List.nil_prefix
    | cons e' other =>
      obtain ⟨rfl, hrest⟩ := List.cons_prefix_cons.1 hstart
      obtain ⟨hbehind, horder'⟩ := List.pairwise_cons.1 horder
      have hnot : (b && isMarked "in_" e') = false := by
        cases hseen : b with
        | false => rfl
        | true => exact hb hseen e' List.mem_cons_self
      rw [groupStart, hnot, if_neg Bool.false_ne_true]
      refine List.cons_prefix_cons.2 ⟨rfl, ih hrest horder' fun hseen e he => ?_⟩
      rcases Bool.or_eq_true_iff.1 hseen with hseen | hout
      · exact hb hseen e (.tail _ he)
      · exact hbehind e he hout

theorem groupStart_isFirstGroup (entries : List Value) : IsFirstGroup entries (groupStart false entries) where
  start := groupStart_start false entries
  inOrder := (groupStart_inOrder false entries).1
  longest := fun _ hstart horder => prefix_groupStart hstart horder fun hb => absurd hb Bool.false_ne_true

/-- An entry of a block: it has a name, and its name inside the block is a text if there is one. -/
structure IsBlockEntry (e : Value) : Prop where
  name : ∃ n, e.entry "name" = .ok (.text n)
  autoName : e.has "auto_name" = .ok false ∨ ∃ n, e.entry "auto_name" = .ok (.text n)

theorem textAt_of_entry (h : v.entry key = .ok (.text s)) : v.textAt key = s := by
  rw [Value.textAt, Value.get_of_entry h]
  rfl

theorem isMarked_of_not_has (he : ∃ n, e.entry "name" = .ok (.text n)) (h : e.has "auto_name" = .ok false) (word : String)
    (hword : containsText "" word = false) : isMarked word e = false := by
  obtain ⟨n, he⟩ := he
  obtain ⟨fs, rfl, -⟩ := Value.entry_ok.1 he
  rw [Value.has_object, Except.ok.injEq, Option.isSome_eq_false_iff, Option.isNone_iff_eq_none] at h
  rw [isMarked, Value.textAt, Value.get_object, h]
  exact hword

theorem firstGroup_run (h : ∀ e ∈ entries, IsBlockEntry e) (b : Bool) : firstGroup b entries =
    .ok ((groupStart b entries).filter (isMarked "in_"), (groupStart b entries).filter (isMarked "out_")) := by
  induction entries generalizing b with
  | nil => rfl
  | cons e rest ih =>
    have ih' := ih fun e' he' => h e' (.tail _ he')
    obtain ⟨hname, hauto⟩ := h e List.mem_cons_self
    rcases hauto with hnone | ⟨n, hn⟩
    · have hin := isMarked_of_not_has hname hnone "in_" (by decide)
      have hout := isMarked_of_not_has hname hnone "out_" (by decide)
      rw [firstGroup, hnone, groupStart, hin, hout, Bool.and_false, if_neg Bool.false_ne_true, Bool.or_false,
        List.filter_cons_of_neg (by simp [hin]), List.filter_cons_of_neg (by simp [hout])]
      exact ih' b
    · have hmark : ∀ word, (Value.text n).has word = .ok (isMarked word e) := by
        intro word
        rw [isMarked, textAt_of_entry hn]
        rfl
      rw [firstGroup, Value.has_of_entry hn]
      show (e.entry "auto_name" >>= fun name => name.has "in_" >>= fun isInput => _) = _
      rw [hn]
      show ((Value.text n).has "in_" >>= fun isInput => _) = _
      rw [hmark, groupStart]
      show (if isMarked "in_" e && b then pure ([], []) else (Value.text n).has "out_" >>= fun isOutput => _) = _
      rw [hmark, Bool.and_comm]
      cases b && isMarked "in_" e with
      | true => rfl
      | false =>
        show (firstGroup (b || isMarked "out_" e) rest >>= fun found => _) = _
        rw [ih', if_neg Bool.false_ne_true, List.filter_cons, List.filter_cons]
        rfl

/-! ## The outputs -/

/-- A traced table under the name that an entry of a block gives it; its traced name and select are noted. -/
structure IsRenamed (entry table renamed : Value) : Prop where
  name : renamed.entry "name" = entry.entry "auto_name"
  origName : renamed.entry "orig_name" = table.entry "name"
  origSelect : renamed.entry "orig_select" = table.entry "select"
  rest : table.SameBut ["name", "orig_name", "orig_select"] renamed

def IsTracedOutput (t : Value) : Prop := ∃ n s, t.entry "name" = .ok (.text n) ∧ t.entry "select" = .ok (.text s)

theorem renamedOutput_run {t : Value} (ha : e.entry "auto_name" = .ok (.text a)) (ht : IsTracedOutput t) :
    ∃ u, renamedOutput e t = .ok u ∧ IsRenamed e t u := by
  obtain ⟨n, s, hn, hs⟩ := ht
  obtain ⟨fs, rfl, hnfs⟩ := Value.entry_ok.1 hn
  obtain ⟨_, he, hsfs⟩ := Value.entry_ok.1 hs
  cases he
  let gs := Fields.set "name" (.text a) (Fields.set "orig_name" (.text n) fs)
  have hselect : (Value.object gs).entry "select" = .ok (.text s) := by
    rw [Value.entry_object, Fields.lookup_set_ne (by decide), Fields.lookup_set_ne (by decide), hsfs]
    rfl
  refine ⟨.object (Fields.set "orig_select" (.text s) gs), ?_, ?_, ?_, ?_, ?_⟩
  · simp only [renamedOutput, bind_ok, pure_ok]
    exact ⟨_, hn, _, rfl, _, ha, _, rfl, _, hselect, _, rfl, _, rfl, _, rfl, _, rfl, rfl⟩
  · rw [ha, Value.entry_object, Fields.lookup_set_ne (by decide), Fields.lookup_set_self]
    rfl
  · rw [hn, Value.entry_object, Fields.lookup_set_ne (by decide), Fields.lookup_set_ne (by decide), Fields.lookup_set_self]
    rfl
  · rw [hs, Value.entry_object, Fields.lookup_set_self]
    rfl
  · refine ⟨fs, _, rfl, rfl, fun k hk => ?_⟩
    simp only [List.mem_cons, List.not_mem_nil, or_false, not_or] at hk
    rw [Fields.lookup_set_ne hk.2.2, Fields.lookup_set_ne hk.1, Fields.lookup_set_ne hk.2.1]

def isNamesake (t u : Value) : Bool := t.textAt "name" == u.textAt "name"

theorem matchingOutputs_run (ha : e.entry "auto_name" = .ok (.text a)) (hn : e.entry "name" = .ok (.text n))
    (ht : ∀ t ∈ tables, IsTracedOutput t) :
    ∃ us, matchingOutputs (.list tables) e = .ok us ∧ List.Forall₂ (IsRenamed e) (tables.filter (isNamesake e)) us := by
  have hall : ∃ parts, tables.mapM (fun t => (do
      if (← e.entry "name").same (← t.entry "name") then return [← renamedOutput e t] else return [] : Outcome (List Value))) =
        .ok parts ∧ List.Forall₂ (IsRenamed e) (tables.filter (isNamesake e)) parts.flatten := by
    induction tables with
    | nil => exact ⟨[], rfl, .nil⟩
    | cons t tables ih =>
      obtain ⟨parts, hparts, hfound⟩ := ih fun t' ht' => ht t' (.tail _ ht')
      obtain ⟨u, hu, hrenamed⟩ := renamedOutput_run ha (ht t List.mem_cons_self)
      obtain ⟨m, -, hm, -⟩ := ht t List.mem_cons_self
      have hsame : (Value.text n).same (.text m) = isNamesake e t := by
        rw [isNamesake, textAt_of_entry hn, textAt_of_entry hm]
        simp [Value.same]
      refine ⟨(if isNamesake e t then [u] else []) :: parts, ?_, ?_⟩
      · rw [List.mapM_cons, hparts, hn, hm, hu]
        show ((if (Value.text n).same (.text m) = true then _ else _) >>= fun _ => _) = _
        rw [hsame]
        cases isNamesake e t <;> rfl
      · rw [List.filter_cons, List.flatten_cons]
        cases isNamesake e t with
        | true => exact .cons hrenamed hfound
        | false => exact hfound
  obtain ⟨parts, hparts, hfound⟩ := hall
  exact ⟨parts.flatten, bind_ok.2 ⟨tables, rfl, bind_ok.2 ⟨parts, hparts, rfl⟩⟩, hfound⟩

def outputPairs (entries tables : List Value) : List (Value × Value) :=
  (entries.filter (isMarked "out_")).flatMap fun e => (tables.filter (isNamesake e)).map fun t => (e, t)

theorem outputs_run (he : ∀ e ∈ entries, IsBlockEntry e) (ht : ∀ t ∈ tables, IsTracedOutput t) :
    ∃ found, (entries.filter (isMarked "out_")).mapM (matchingOutputs (.list tables)) = .ok found ∧
      List.Forall₂ (fun p u => IsRenamed p.1 p.2 u) (outputPairs entries tables) found.flatten := by
  have hall : ∀ outs : List Value, (∀ e ∈ outs, IsBlockEntry e ∧ isMarked "out_" e = true) →
      ∃ found, outs.mapM (matchingOutputs (.list tables)) = .ok found ∧ List.Forall₂ (fun p u => IsRenamed p.1 p.2 u)
        (outs.flatMap fun e => (tables.filter (isNamesake e)).map fun t => (e, t)) found.flatten := by
    intro outs houts
    induction outs with
    | nil => exact ⟨[], rfl, .nil⟩
    | cons e outs ih =>
      obtain ⟨found, hfound, hrest⟩ := ih fun e' he' => houts e' (.tail _ he')
      obtain ⟨⟨⟨n, hn⟩, hauto⟩, hmark⟩ := houts e List.mem_cons_self
      rcases hauto with hnone | ⟨a, ha⟩
      · rw [isMarked_of_not_has ⟨n, hn⟩ hnone "out_" (by decide)] at hmark
        cases hmark
      · obtain ⟨us, hus, hfirst⟩ := matchingOutputs_run ha hn ht
        have hpairs : List.Forall₂ (fun p u => IsRenamed p.1 p.2 u) ((tables.filter (isNamesake e)).map fun t => (e, t)) us :=
          List.forall₂_map_left_iff.2 hfirst
        refine ⟨us :: found, ?_, List.rel_append hpairs hrest⟩
        rw [List.mapM_cons, hus, hfound]
        rfl
  exact hall _ fun e hmem => ⟨he e (List.mem_of_mem_filter hmem), (List.mem_filter.1 hmem).2⟩

/-! ## The variables -/

def IsVariables (v : Value) : Prop := ∃ vs, v = .list vs ∧ ∀ w ∈ vs, ∃ s, w.entry "select" = .ok (.text s)

theorem forM_succeeds {f : α → EStateM ε σ Unit} {I : σ → Prop} {xs : List α}
    (h : ∀ x ∈ xs, ∀ s, I s → ∃ s', f x s = .ok () s' ∧ I s') {s : σ} (hs : I s) : ∃ s', xs.forM f s = .ok () s' ∧ I s' := by
  induction xs generalizing s with
  | nil => exact ⟨s, rfl, hs⟩
  | cons x xs ih =>
    obtain ⟨t, ht, hI⟩ := h x List.mem_cons_self s hs
    obtain ⟨s', hs', hI'⟩ := ih (fun y hy => h y (.tail _ hy)) hI
    exact ⟨s', run_bind_ok.2 ⟨(), t, ht, hs'⟩, hI'⟩

theorem redirectedSelect?_run (ho : table.entry "orig_name" = .ok (.text o)) (hn : table.entry "name" = .ok (.text n))
    (hs : w.entry "select" = .ok (.text s)) : ∃ r, redirectedSelect? table w = .ok r ∧ ∀ x ∈ r, ∃ text, x = Value.text text := by
  have hname : table.textEntry "name" = .ok n := by
    rw [Value.textEntry, hn]
    rfl
  rw [redirectedSelect?, ho, hs]
  show ∃ r, (if Text.occurs o.toList s.toList = true then _ else _) = _ ∧ _
  cases Text.occurs o.toList s.toList with
  | false => exact ⟨none, rfl, by simp⟩
  | true =>
    refine ⟨some (.text _), bind_ok.2 ⟨s, rfl, bind_ok.2 ⟨o, rfl, bind_ok.2 ⟨n, hname, rfl⟩⟩⟩, ?_⟩
    simp

def redirectVariable (table : Value) (p : Value × Nat) : Change Unit := do
  if let some select ← redirectedSelect? table p.1 then
    modify (Value.modifyAt (fun v => .object (v.toFields.set "select" select)) [.position p.2])

theorem redirectVariables_run (ho : table.entry "orig_name" = .ok (.text o)) (hn : table.entry "name" = .ok (.text n))
    (hv : IsVariables v) : ∃ v', redirectVariables table v = .ok () v' ∧ IsVariables v' := by
  obtain ⟨vs, rfl, hvs⟩ := id hv
  suffices h : ∀ p ∈ vs.zipIdx, ∀ u, IsVariables u → ∃ u', redirectVariable table p u = .ok () u' ∧ IsVariables u' by
    obtain ⟨v', hv', hI⟩ := forM_succeeds h hv
    refine ⟨v', ?_, hI⟩
    simp only [redirectVariables, run_parts]
    exact ⟨vs.zipIdx, rfl, hv'⟩
  · rintro ⟨w, i⟩ hp u hu
    obtain ⟨s, hs⟩ := hvs w (List.fst_mem_of_mem_zipIdx hp)
    obtain ⟨r, hr, htext⟩ := redirectedSelect?_run ho hn hs
    cases r with
    | none => exact ⟨u, run_bind_ok.2 ⟨none, u, run_lift_ok.2 ⟨hr, rfl⟩, rfl⟩, hu⟩
    | some x =>
      obtain ⟨text, rfl⟩ := htext x rfl
      obtain ⟨us, rfl, hus⟩ := hu
      refine ⟨_, run_bind_ok.2 ⟨_, _, run_lift_ok.2 ⟨hr, rfl⟩, rfl⟩, _, rfl, fun w' hw' => ?_⟩
      obtain ⟨j, hj, rfl⟩ := List.mem_iff_getElem.1 hw'
      rw [List.getElem_modify]
      split
      · exact ⟨text, by rw [Value.modifyAt, Value.entry_object, Fields.lookup_set_self]; rfl⟩
      · exact hus _ (List.getElem_mem _)

/-! ## The block -/

/-- A traced call that is a block with this text: its entries have names, its traced outputs have names and selects, and its
variables have selects. -/
structure IsTracedBlock (call : Value) (entries inputs tables : List Value) (block : String) : Prop where
  auto : call.entry "auto" = .ok (.list entries)
  named : ∀ e ∈ entries, IsBlockEntry e
  inputs : call.entryOr "input_tables" (.list []) = .ok (.list inputs)
  outputs : call.entryOr "output_tables" (.list []) = .ok (.list tables)
  traced : ∀ t ∈ tables, IsTracedOutput t
  selects : ∃ v, call.entryOr "output_vars" (.list []) = .ok v ∧ IsVariables v
  text : ∃ statements, call.entryOr "sql" (.list []) = .ok statements ∧ joinMembers statements (.text "\n") (.text "") = .ok block
  nonempty : block ≠ ""

theorem onTraced_run {c : Change α} {fs : Fields} {a : α} (hw : (Value.object fs).entryOr key (.list []) = .ok w) (hc : c w = .ok a v) :
    ∃ gs, onTraced key c (.object fs) = .ok (a, v) (.object gs) ∧ (Value.object fs).SameBut [key] (.object gs) := by
  rw [Value.entryOr_object] at hw
  cases hk : fs.lookup key with
  | none =>
    rw [hk] at hw
    cases hw
    exact ⟨fs, onTraced_iff.2 (.inr ⟨hk, hc, rfl⟩), .refl _ fs⟩
  | some w' =>
    rw [hk] at hw
    cases hw
    exact ⟨_, onTraced_iff.2 (.inl ⟨w', hk, hc, rfl⟩), Value.sameBut_putAt fs key v⟩

def twoGroups : List Value := [("A", "in_0"), ("B", "out_0"), ("C", "in_1")].map fun p =>
  .object [("name", .text p.1), ("auto_name", .text p.2)]

def twoGroupBlock : Value := .object [("auto", .list twoGroups),
  ("output_tables", .list [.object [("name", .text "B"), ("select", .text "S")]]), ("sql", .list [.text "in_0;\nF;"])]

end TraceArtifacts
