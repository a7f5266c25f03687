import TraceArtifacts.Proofs.Signatures
import TraceArtifacts.Proofs.Writing

/-!
# Proofs: signatures grow with each writing

The variables of a base procedure are put behind its output tables whenever its file is written, and the layers keep that list.
-/

namespace TraceArtifacts

variable {mapSources : Bool} {filters keys : List String} {n : Nat} {count : ProcedureName → Nat} {y : ProcedureName} {t t' : Session}
  {u : Unit} {layers now o o' object path v : Value}

/-! ## The text of a signature -/

def shownMembers (v : Value) : Outcome (List Value) := if v.isTruthy then v.members else .ok []

theorem shownMembers_of_members {ms : List Value} (h : v.members = .ok ms) : shownMembers v = .ok ms := by
  unfold shownMembers
  rw [Value.isTruthy_of_members h]
  cases ms with
  | nil => rfl
  | cons m ms => exact h

theorem parametersOf_texts {mark s : String} (h : parametersOf mark v = .ok s) :
    ∃ ts texts, shownMembers v = .ok ts ∧ ts.mapM (Container.renderParameter mark) = .ok texts ∧
      v.isTruthy = !texts.isEmpty ∧ s = String.intercalate ", " texts := by
  unfold parametersOf at h
  unfold shownMembers
  cases htrue : v.isTruthy with
  | false =>
    simp only [htrue, Bool.false_eq_true, if_false, pure_ok] at h
    exact ⟨[], [], rfl, rfl, rfl, h.symm⟩
  | true =>
    simp only [htrue, if_true, Container.renderParameters, bind_ok, pure_ok] at h
    obtain ⟨ts, hts, texts, htexts, rfl⟩ := h
    have hlen := (mapM_ok.1 htexts).length_eq
    have hsome : ts.isEmpty = false := by simpa [htrue] using (Value.isTruthy_of_members hts).symm
    cases texts with
    | nil =>
      obtain rfl := List.eq_nil_of_length_eq_zero hlen
      cases hsome
    | cons text texts => exact ⟨ts, _, hts, htexts, rfl, rfl⟩

theorem signature_texts {inputs outputs : Value} {s : String} (h : Container.signature inputs outputs = .ok s) :
    ∃ ts us ins outs, shownMembers inputs = .ok ts ∧ shownMembers outputs = .ok us ∧
      ts.mapM (Container.renderParameter "in") = .ok ins ∧ us.mapM (Container.renderParameter "out") = .ok outs ∧
      s = String.intercalate ", " (ins ++ outs) := by
  simp only [signature_eq, bind_ok, pure_ok] at h
  obtain ⟨s1, h1, s2, h2, rfl⟩ := h
  obtain ⟨ts, ins, hts, hins, htrue, rfl⟩ := parametersOf_texts h1
  obtain ⟨us, outs, hus, houts, htrue', rfl⟩ := parametersOf_texts h2
  refine ⟨ts, us, ins, outs, hts, hus, hins, houts, ?_⟩
  rw [htrue, htrue']
  cases ins with
  | nil => simp
  | cons i ins =>
    cases outs with
    | nil => simp
    | cons o outs =>
      rw [String.intercalate_append_of_ne_nil (by simp) (by simp)]
      simp [String.append_assoc]

def copies (n : Nat) (xs : List α) : List α := (List.replicate n xs).flatten

theorem copies_succ (n : Nat) (xs : List α) : copies (n + 1) xs = xs ++ copies n xs := by
  rw [copies, List.replicate_succ, List.flatten_cons, copies]

theorem copies_append (n : Nat) (xs : List α) : copies n xs ++ xs = copies (n + 1) xs := by
  rw [copies, copies, List.replicate_succ', List.flatten_append]
  simp

theorem mapM_copies {f : α → Outcome β} {xs : List α} {ys : List β} (h : (copies (n + 1) xs).mapM f = .ok ys) :
    ∃ zs, xs.mapM f = .ok zs ∧ ys = copies (n + 1) zs := by
  induction n generalizing ys with
  | zero =>
    rw [copies_succ, copies, List.replicate_zero, List.flatten_nil, List.append_nil] at h
    exact ⟨ys, h, by simp [copies]⟩
  | succ n ih =>
    rw [copies_succ, List.mapM_append] at h
    simp only [bind_ok, pure_ok] at h
    obtain ⟨zs, hzs, rest, hrest, rfl⟩ := h
    obtain ⟨zs', hzs', rfl⟩ := ih hrest
    obtain rfl := ok_unique hzs hzs'
    exact ⟨zs, hzs, (copies_succ (n + 1) zs).symm⟩

theorem intercalate_copies_ne (xs : List String) {vars : List String} (hv : vars ≠ []) (hn : n ≠ 0) :
    String.intercalate ", " (xs ++ copies (n + 1) vars) ≠ String.intercalate ", " (xs ++ copies 1 vars) := by
  obtain ⟨n, rfl⟩ := Nat.exists_eq_succ_of_ne_zero hn
  have hone : copies 1 vars = vars := by simp [copies]
  rw [copies_succ, hone, ← List.append_assoc, String.intercalate_append_of_ne_nil (by simp [hv]) (by simp [copies_succ, hv])]
  intro h
  have hlen := congrArg String.length h
  simp only [String.length_append] at hlen
  have hcomma : (", " : String).length = 2 := rfl
  omega

/-- A signature that lists each input and output table of a base procedure once, and its variables so many times. -/
def SignedWith (object : Value) (n : Nat) (signature : String) : Prop :=
  ∃ ts us vs ins outs vars, (do shownMembers (← object.entryOr "input_tables" (.list []))) = .ok ts ∧
    partsUnder "output_tables" object = .ok us ∧ partsUnder "output_vars" object = .ok vs ∧
    ts.mapM (Container.renderParameter "in") = .ok ins ∧ us.mapM (Container.renderParameter "out") = .ok outs ∧
    vs.mapM (Container.renderParameter "out") = .ok vars ∧
    signature = String.intercalate ", " (ins ++ outs ++ copies n vars)

theorem SignedWith.once_iff {signature : String} (h : SignedWith object (n + 1) signature) :
    SignedWith object 1 signature ↔ partsUnder "output_vars" object = .ok [] ∨ n = 0 := by
  constructor
  · rintro ⟨ts, us, vs, ins, outs, vars, hts, hus, hvs, hins, houts, hvars, rfl⟩
    obtain ⟨ts', us', vs', ins', outs', vars', hts', hus', hvs', hins', houts', hvars', hsig⟩ := h
    obtain rfl := ok_unique hts hts'
    obtain rfl := ok_unique hus hus'
    obtain rfl := ok_unique hvs hvs'
    obtain rfl := ok_unique hins hins'
    obtain rfl := ok_unique houts houts'
    obtain rfl := ok_unique hvars hvars'
    by_cases hv : vars = []
    · subst hv
      have hnil := (mapM_ok.1 hvars).length_eq
      obtain rfl := List.eq_nil_of_length_eq_zero hnil
      exact .inl hvs
    · refine .inr (by_contra fun hn => ?_)
      exact intercalate_copies_ne _ hv hn hsig.symm
  · rintro (hvs | rfl)
    · obtain ⟨ts, us, vs, ins, outs, vars, hts, hus, hvs', hins, houts, hvars, rfl⟩ := h
      obtain rfl := ok_unique hvs hvs'
      obtain rfl : [] = vars := pure_ok.1 hvars
      exact ⟨ts, us, [], ins, outs, [], hts, hus, hvs, hins, houts, hvars, by simp [copies]⟩
    · exact h

/-! ## One procedure -/

def IsComplete (object : Value) : Prop :=
  ∀ k ∈ ["sql", "output_tables", "output_vars"], object.has k = .ok true

def writesFile (filters : List String) (object : Value) : Bool :=
  match (do Container.passes filters (← (← object.entry "metadata").entry "procedure_name") : Outcome Bool) with
  | .ok b => b
  | .error _ => false

theorem writesFile_sameBut (h : o.SameBut keys o') (hk : "metadata" ∉ keys) (filters : List String) :
    writesFile filters o' = writesFile filters o := by
  unfold writesFile
  rw [h.entry hk]

theorem entryOr_of_entry {w : Value} {k : String} (h : v.entry k = .ok w) (d : Value) : v.entryOr k d = .ok w := by
  obtain ⟨fs, rfl, hk⟩ := Value.entry_ok.1 h
  rw [Value.entryOr_object, hk]
  rfl

theorem IsComplete.outputs (h : IsComplete object) {tables : Value} (ht : object.entryOr "output_tables" (.list []) = .ok tables) :
    object.entry "output_tables" = .ok tables := by
  have hhas := h "output_tables" (by decide)
  simpa [Value.entryOr, hhas, bind, Except.bind] using ht

theorem baseProcedureFile_run (hc : IsComplete object) {file : Option Container.ProcedureFile}
    (h : Container.baseProcedureFile filters mapSources (.text y.1) (.text y.2) object t = .ok file t') :
    (writesFile filters object = false ∧ file = none ∧ t'.settings = t.settings) ∨
      (writesFile filters object = true ∧ ∃ us vs layers, object.entry "output_tables" = .ok (.list us) ∧
        partsUnder "output_vars" object = .ok vs ∧ t.settings.entry Setting.layers = .ok layers ∧
        t'.settings = t.settings.set Setting.layers (layers.putAt (procedurePlace y ++ [.key "output_tables"]) (.list (us ++ vs))) ∧
        ∃ inputs f, object.entryOr "input_tables" (.list []) = .ok inputs ∧ file = some f ∧
          Container.signature inputs (.list (us ++ vs)) = .ok f.signature) := by
  simp only [Container.baseProcedureFile, run_parts, hc "sql" (by decide), Except.ok.injEq] at h
  obtain ⟨_, rfl, h⟩ := h
  simp only [if_not_true, run_parts] at h
  obtain ⟨metadata, hmeta, name, hname, b, hb, h⟩ := h
  have hwrites : writesFile filters object = b := by
    unfold writesFile
    rw [hmeta, show (do Container.passes filters (← (← (Except.ok metadata : Outcome Value)).entry
      "procedure_name") : Outcome Bool) = Except.ok b from bind_ok.2 ⟨metadata, rfl, bind_ok.2 ⟨name, hname, hb⟩⟩]
  cases b with
  | false =>
    simp only [Bool.not_false, if_true, run_pure_ok] at h
    exact .inl ⟨hwrites, h.1.symm, by rw [h.2]⟩
  | true =>
    simp only [if_not_true, run_parts, run_pure_ok] at h
    obtain ⟨inputs, hinputs, outputs, t1, happend, sig, hsig, _, -, _, -, body, t2, hbody, rfl, rfl⟩ := h
    have hkept : t2.settings = t1.settings := Container.keeps_mappedIf (J := WithSettings (· = t1.settings)) mapSources _ hbody rfl
    rcases Container.appendVariables_run happend with ⟨hno, -⟩ | ⟨us, vars, vs, layers, hus, hvars, hvs, rfl, hl, hs⟩
    · rw [hc "output_vars" (by decide)] at hno
      cases hno
    · refine .inr ⟨hwrites, us, vs, layers, hc.outputs hus, ?_, hl, hkept.trans hs, inputs, _, hinputs, rfl, hsig⟩
      rw [partsUnder, entryOr_of_entry hvars]
      exact hvs

theorem writeBaseProcedures_eq (hb : IsBaseLayer layers) (ht : t.settings.entry Setting.layers = .ok layers) (path : Value)
    (filters : List String) (mapSources : Bool) :
    Container.writeBaseProcedures path filters mapSources t =
      ((proceduresOf layers).forM fun p => Container.writeBaseProcedure path filters mapSources (.text p.1) (.text p.2.1) p.2.2) t := by
  have hrun : Job.layers t = .ok layers t := run_bind_ok.2 ⟨t, t, run_get_ok.2 ⟨rfl, rfl⟩, run_lift_ok.2 ⟨ht, rfl⟩⟩
  rw [Container.writeBaseProcedures, run_bind_of_ok hrun, forEachProcedure_eq hb]

/-! ## How far procedures have grown -/

def GrownBy (n : Nat) (first now : Value) : Prop :=
  (n = 0 ∧ now.entry "output_tables" = first.entry "output_tables") ∨
    ∃ us vs, first.entry "output_tables" = .ok (.list us) ∧ partsUnder "output_vars" first = .ok vs ∧
      now.entry "output_tables" = .ok (.list (us ++ copies n vs))

theorem GrownBy.outputs {first : Value} (h : GrownBy n first now) {ws vs : List Value} (hws : now.entry "output_tables" = .ok (.list ws))
    (hvs : partsUnder "output_vars" first = .ok vs) : ∃ us, first.entry "output_tables" = .ok (.list us) ∧ ws = us ++ copies n vs := by
  rcases h with ⟨rfl, hsame⟩ | ⟨us, vs', hus, hvs', hnow⟩
  · exact ⟨ws, hsame.symm.trans hws, by simp [copies]⟩
  · obtain rfl := ok_unique hvs hvs'
    exact ⟨us, hus, Value.list.inj (ok_unique hws hnow)⟩

/-- How layers have grown: each base procedure by as many copies of its variables as a count says. -/
structure Grown (layers : Value) (count : ProcedureName → Nat) (now : Value) : Prop where
  alike : Alike ["output_tables"] layers now
  complete : ∀ {y o}, procedureAt? layers y = some o → IsComplete o
  grown : ∀ {y o o'}, procedureAt? layers y = some o → procedureAt? now y = some o' → GrownBy (count y) o o'

theorem Grown.congr {count' : ProcedureName → Nat} (h : Grown layers count now)
    (hcount : ∀ {y o}, procedureAt? layers y = some o → count' y = count y) : Grown layers count' now :=
  ⟨h.alike, h.complete, fun ho ho' => by rw [hcount ho]; exact h.grown ho ho'⟩

theorem Grown.isComplete (h : Grown layers count now) (ho : procedureAt? layers y = some o) (ho' : procedureAt? now y = some o')
    (hs : o.SameBut ["output_tables"] o') : IsComplete o' := by
  have hc := h.complete ho
  intro k hk
  by_cases hkey : k = "output_tables"
  · subst hkey
    -- the list is there before, so it is there afterwards
    have hentry : ∃ v, o'.entry "output_tables" = .ok v := by
      rcases h.grown ho ho' with ⟨-, hsame⟩ | ⟨us, vs, -, -, hnow⟩
      · obtain ⟨fs, gs, rfl, -, -⟩ := hs
        have hhas := hc "output_tables" (by decide)
        rw [Value.has_object, Except.ok.injEq, Option.isSome_iff_exists] at hhas
        obtain ⟨v, hv⟩ := hhas
        exact ⟨v, hsame.trans (Value.entry_ok.2 ⟨fs, rfl, hv⟩)⟩
      · exact ⟨_, hnow⟩
    obtain ⟨v, hv⟩ := hentry
    obtain ⟨gs, rfl, hgs⟩ := Value.entry_ok.1 hv
    rw [Value.has_object, hgs]
    rfl
  · rw [hs.has (by simpa using hkey)]
    exact hc k hk

def writtenAt (layers : Value) (filters : List String) (y : ProcedureName) : Bool :=
  (procedureAt? layers y).any (writesFile filters)

theorem writeBaseProcedure_grows (hg : Grown layers count now) (ho : procedureAt? now y = some object)
    (ht : t.settings.entry Setting.layers = .ok now)
    (h : Container.writeBaseProcedure path filters mapSources (.text y.1) (.text y.2) object t = .ok u t') :
    ∃ now', t'.settings.entry Setting.layers = .ok now' ∧
      Grown layers (fun z => count z + if z = y then (writtenAt layers filters y).toNat else 0) now' ∧
      ∀ z, z ≠ y → procedureAt? now' z = procedureAt? now z := by
  obtain ⟨first, hfirst, hs⟩ := hg.alike.procedure' ho
  have hwritten : writtenAt layers filters y = writesFile filters object := by
    rw [writtenAt, hfirst, Option.any_some, ← writesFile_sameBut hs (by decide)]
  obtain ⟨file, t1, hfile, h⟩ := run_bind_ok.1 h
  have hkept : t'.settings = t1.settings := by
    cases file with
    | none => rw [(run_pure_ok.1 h).2]
    | some file => exact Container.keeps_writeProcedure (keeps_writeFile (P := (· = t1.settings))) _ _ _ _ h rfl
  rcases baseProcedureFile_run (hg.isComplete hfirst ho hs) hfile with
    ⟨hno, -, hsame⟩ | ⟨hyes, ws, vs, l, hws, hvs, hl, hset, -⟩
  · refine ⟨now, by rw [hkept, hsame, ht], hg.congr fun {z} _ => ?_, fun _ _ => rfl⟩
    rw [hwritten, hno]
    by_cases hz : z = y <;> simp [hz]
  · obtain rfl := ok_unique ht hl
    obtain ⟨fs, gs, rfl, rfl, hlook⟩ := hs
    have hput : now.putAt (procedurePlace y ++ [.key "output_tables"]) (.list (ws ++ vs)) =
        (addressOf y).put ((Value.object gs).putAt [.key "output_tables"] (.list (ws ++ vs))) now :=
      Value.putAt_append ho _ _
    rw [hput] at hset
    have hne : ∀ z, z ≠ y → procedureAt? ((addressOf y).put
        ((Value.object gs).putAt [.key "output_tables"] (.list (ws ++ vs))) now) z = procedureAt? now z :=
      fun z hz => procedureAt?_put_ne hz ..
    refine ⟨_, by rw [hkept, hset, Settings.entry_set_self], ⟨?_, hg.complete, fun {z o o'} hz hz' => ?_⟩, hne⟩
    · exact hg.alike.trans (.put hg.alike.base' hg.alike.hasRecords ho (Value.sameBut_putAt gs _ _))
    · by_cases hzy : z = y
      · subst hzy
        obtain rfl := Option.mem_unique hfirst hz
        rw [procedureAt?_put_self _ ho] at hz'
        cases hz'
        have hvs' : partsUnder "output_vars" (Value.object fs) = .ok vs := by
          rw [← hvs]
          exact (Value.SameBut.partsUnder ⟨fs, gs, rfl, rfl, hlook⟩ (by decide)).symm
        obtain ⟨us, hus, rfl⟩ := (hg.grown hfirst ho).outputs hws hvs'
        have hnow : ((Value.object gs).putAt [.key "output_tables"] (.list (us ++ copies (count z) vs ++ vs))).entry "output_tables" =
            .ok (.list (us ++ copies (count z + 1) vs)) := by
          rw [List.append_assoc, copies_append]
          exact Value.entry_eq_ok_iff.2 (Value.at?_putAt_self _ (Value.entry_eq_ok_iff.1 hws))
        refine .inr ⟨us, vs, hus, hvs', ?_⟩
        simpa only [if_true, hwritten, hyes, Bool.toNat_true] using hnow
      · rw [hne z hzy] at hz'
        simpa only [hzy, if_false, Nat.add_zero] using hg.grown hz hz'

/-! ## All procedures -/

def namesOf (ps : List (String × String × Value)) : List ProcedureName := ps.map fun p => (p.1, p.2.1)

/-- How layers grow while the files of procedures are written: those that are still to come are as they were, the others have
grown if their files are written. -/
structure Growing (layers : Value) (count : ProcedureName → Nat) (filters : List String)
    (rest : List (String × String × Value)) (t : Session) : Prop where
  nodup : (namesOf rest).Nodup
  grown : ∃ now, t.settings.entry Setting.layers = .ok now ∧ (∀ p ∈ rest, procedureAt? now (p.1, p.2.1) = some p.2.2) ∧
    Grown layers (fun y => count y + if y ∈ namesOf rest then 0 else (writtenAt layers filters y).toNat) now

theorem Growing.step {p : String × String × Value} {rest : List (String × String × Value)} (hI : Growing layers count filters (p :: rest) t)
    (h : Container.writeBaseProcedure path filters mapSources (.text p.1) (.text p.2.1) p.2.2 t = .ok u t') :
    Growing layers count filters rest t' := by
  obtain ⟨hnd, now, hnow, hrest, hgrown⟩ := hI
  obtain ⟨hnew, hnd⟩ := List.nodup_cons.1 hnd
  obtain ⟨now', hnow', hgrown', hsame⟩ := writeBaseProcedure_grows (y := (p.1, p.2.1)) hgrown (hrest p (.head _)) hnow h
  refine ⟨hnd, now', hnow', fun q hq => ?_, hgrown'.congr fun {y o} _ => ?_⟩
  · have hne : (q.1, q.2.1) ≠ (p.1, p.2.1) := by
      intro e
      have hmem : (q.1, q.2.1) ∈ namesOf rest := List.mem_map_of_mem hq
      rw [e] at hmem
      exact hnew hmem
    rw [hsame _ hne]
    exact hrest q (.tail _ hq)
  · by_cases hy : y = (p.1, p.2.1)
    · subst hy
      have hmem : (p.1, p.2.1) ∈ namesOf (p :: rest) := List.mem_cons_self ..
      have hnot : (p.1, p.2.1) ∉ namesOf rest := hnew
      simp only [if_neg hnot, if_pos hmem, if_true, Nat.add_zero]
    · have hiff : y ∈ namesOf (p :: rest) ↔ y ∈ namesOf rest := ⟨fun h => (List.mem_cons.1 h).resolve_left hy, List.mem_cons_of_mem _⟩
      simp only [hiff, hy, if_false, Nat.add_zero]

theorem writeBaseProcedures_grows (hg : Grown layers count now) (ht : t.settings.entry Setting.layers = .ok now)
    (h : Container.writeBaseProcedures path filters mapSources t = .ok u t') :
    ∃ now', t'.settings.entry Setting.layers = .ok now' ∧ Grown layers (fun y => count y + (writtenAt layers filters y).toNat) now' := by
  rw [writeBaseProcedures_eq hg.alike.base' ht] at h
  have hstart : Growing layers count filters (proceduresOf now) t := by
    refine ⟨procedureNames_nodup hg.alike.base', now, ht, fun p hp => ?_, hg.congr fun {y o} ho => ?_⟩
    · exact (mem_proceduresOf hg.alike.base').1 hp
    · obtain ⟨o', ho', -⟩ := hg.alike.procedure ho
      have hy : y ∈ namesOf (proceduresOf now) := (mem_procedureNames hg.alike.base').2 ⟨o', ho'⟩
      rw [if_pos hy, Nat.add_zero]
  obtain ⟨-, l, hl, -, hgrown⟩ := forM_run_ok (fun _ _ _ _ _ hI hp => hI.step hp) hstart h
  exact ⟨l, hl, hgrown.congr fun _ => by simp [namesOf]⟩

/-! ## Runs of phases -/

def Phase.writes (layers : Value) (y : ProcedureName) : Phase → Bool
  | .base _ filters _ => writtenAt layers filters y
  | .other _ => false

def writings (layers : Value) (phases : List Phase) (y : ProcedureName) : Nat :=
  phases.countP (Phase.writes layers y)

theorem phases_grow (hg : Grown layers (fun _ => 0) layers) {phases : List Phase}
    (hphases : ∀ p ∈ phases, ∃ c : ContainerCall, p ∈ c.phases) {s : Session} (hs : s.settings.entry Setting.layers = .ok layers)
    (h : phases.forM Phase.run s = .ok u t) :
    ∃ now, t.settings.entry Setting.layers = .ok now ∧ Grown layers (writings layers phases) now := by
  let I (rest : List Phase) (r : Session) : Prop := ∃ before now, phases = before ++ rest ∧
    r.settings.entry Setting.layers = .ok now ∧ Grown layers (writings layers before) now
  have hend : I [] t := by
    refine forM_run_ok (I := I) (fun p rest r u r' hI hp => ?_) ⟨[], layers, rfl, hs, hg⟩ h
    obtain ⟨before, now, rfl, hnow, hgrown⟩ := hI
    refine ⟨before ++ [p], ?_⟩
    have hcount : ∀ y, writings layers (before ++ [p]) y = writings layers before y + (p.writes layers y).toNat := by
      intro y
      rw [writings, List.countP_append, List.countP_singleton, writings]
      cases p.writes layers y <;> rfl
    cases p with
    | base key filters mapSources =>
      obtain ⟨path, r1, hpath, hp⟩ := run_bind_ok.1 hp
      have hr1 := keeps_setting (J := WithSettings fun st => st.entry Setting.layers = .ok now) key hpath hnow
      obtain ⟨now', hnow', hgrown'⟩ := writeBaseProcedures_grows hgrown hr1 hp
      exact ⟨now', by simp, hnow', hgrown'.congr fun {y _} _ => hcount y⟩
    | other job =>
      obtain ⟨c, hc⟩ := hphases (.other job) (by simp)
      exact ⟨now, by simp, keeps_other (Container.unnoted_entry (by decide) _) hc hp hnow, hgrown.congr fun {y _} _ => hcount y⟩
  obtain ⟨before, now, hbefore, hnow, hgrown⟩ := hend
  rw [List.append_nil] at hbefore
  subst hbefore
  exact ⟨now, hnow, hgrown⟩

theorem Grown.signed (hg : Grown layers count now) (ho : procedureAt? now y = some object) :
    ∃ first, procedureAt? layers y = some first ∧ ∀ filters mapSources t file t',
      Container.baseProcedureFile filters mapSources (.text y.1) (.text y.2) object t = .ok (some file) t' →
      SignedWith first (count y + 1) file.signature := by
  obtain ⟨first, hfirst, hs⟩ := hg.alike.procedure' ho
  refine ⟨first, hfirst, fun filters mapSources t file t' h => ?_⟩
  obtain ⟨-, hnone, -⟩ | ⟨-, ws, vs, l, hws, hvs, -, -, inputs, f, hinputs, hf, hsig⟩ :=
    baseProcedureFile_run (hg.isComplete hfirst ho hs) h
  · cases hnone
  cases hf
  have hvs' : partsUnder "output_vars" first = .ok vs := by
    rw [← hvs]
    exact (hs.partsUnder (by decide)).symm
  obtain ⟨us, hus, rfl⟩ := (hg.grown hfirst ho).outputs hws hvs'
  obtain ⟨ts, us', ins, outs, hts, hus', hin, hout, htext⟩ := signature_texts hsig
  obtain rfl := ok_unique (shownMembers_of_members rfl) hus'
  -- the outputs are the tables and all copies of the variables
  rw [List.append_assoc, copies_append, List.mapM_append] at hout
  simp only [bind_ok, pure_ok] at hout
  obtain ⟨tables, htables, rest, hrest, rfl⟩ := hout
  obtain ⟨vars, hvars, rfl⟩ := mapM_copies hrest
  refine ⟨ts, us, vs, ins, tables, vars, ?_, ?_, hvs', hin, htables, hvars, ?_⟩
  · rw [hs.entryOr (by decide)] at hinputs
    exact bind_ok.2 ⟨inputs, hinputs, hts⟩
  · rw [partsUnder, entryOr_of_entry hus]
    rfl
  · rw [htext, List.append_assoc]

/-! ## Processed sessions -/

theorem Stored.isComplete {P : BaseParts → Prop} (h : Stored P o) : IsComplete o := by
  obtain ⟨b, name, category, -, rfl⟩ := h
  intro k hk
  simp only [List.mem_cons, List.not_mem_nil, or_false] at hk
  rcases hk with rfl | rfl | rfl <;> rfl

theorem IsComplete.sameBut (h : IsComplete o) (hs : o.SameBut keys o') (hkeys : ∀ k ∈ ["sql", "output_tables", "output_vars"], k ∉ keys) :
    IsComplete o' := by
  intro k hk
  rw [hs.has (hkeys k hk)]
  exact h k hk

theorem processTrace_complete {raiseOnError logStatements own : Bool} {s s' : Session}
    (h : processTrace raiseOnError logStatements own s = .ok u s') (hl : s.settings.entry Setting.layers = .ok (.object [])) :
    (s.trace.isTruthy = false ∧ s' = s) ∨ ∃ layers, s'.settings.entry Setting.layers = .ok layers ∧ Grown layers (fun _ => 0) layers := by
  refine (processTrace_stored storesAs_trivial h hl trivial).imp_right ?_
  rintro ⟨layers, hl, hbase, hrecords, hstored⟩
  refine ⟨layers, hl, .refl _ hbase hrecords, fun {y o} ho => ?_, fun ho ho' => ?_⟩
  · obtain ⟨o', ho', hs⟩ := hstored ho
    exact ho'.isComplete.sameBut hs (by decide)
  · obtain rfl := Option.mem_unique ho ho'
    exact .inl ⟨rfl, rfl⟩

/-- What the files of base procedures have to do with layers as they were at first, when some phases have been run. -/
structure Signed (layers now : Value) (before : List Phase) (t : Session) : Prop where
  written : ∀ path filters mapSources, Container.writeBaseProcedures path filters mapSources t =
    ((proceduresOf now).forM fun p => Container.writeBaseProcedure path filters mapSources (.text p.1) (.text p.2.1) p.2.2) t
  signatures : ∀ y object, (y.1, y.2, object) ∈ proceduresOf now → ∃ first, (y.1, y.2, first) ∈ proceduresOf layers ∧
    ∀ filters mapSources t file t', Container.baseProcedureFile filters mapSources (.text y.1) (.text y.2) object t = .ok (some file) t' →
      SignedWith first (writings layers before y + 1) file.signature ∧ (SignedWith first 1 file.signature ↔
          partsUnder "output_vars" first = .ok [] ∨ writings layers before y = 0)

def signNow (y : ProcedureName) : Job (Option String) := do
  let object ← (addressOf y).object (← Job.layers)
  let file ← Container.baseProcedureFile [] false (.text y.1) (.text y.2) object
  return file.map Container.ProcedureFile.signature

end TraceArtifacts
