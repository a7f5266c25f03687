import TraceArtifacts.Managed
import TraceArtifacts.Proofs.Wording
import TraceArtifacts.Proofs.Writing

/-!
# Proofs: what elements take over

The method of an element is made of parts: its output, its input, the model it reads, its algorithm and its call.
-/

namespace TraceArtifacts.Managed

variable {c c' own : Carried} {e : Value} {st : Settings} {t t' : Session}

/-! ## Parts that are set -/

def Carried.over (own before : Carried) : Carried where
  output := own.output <|> before.output
  input := own.input <|> before.input
  modelInterface := own.modelInterface <|> before.modelInterface
  algo := own.algo <|> before.algo
  call := own.call <|> before.call

theorem takeOutputs_over (own before : Carried) (tables : List Value) :
    takeOutputs st (own.over before) tables = (fun p => (p.1.over before, p.2)) <$> takeOutputs st own tables := by
  induction tables generalizing own with
  | nil => rfl
  | cons table tables ih =>
    simp only [takeOutputs, map_bind]
    refine bind_congr fun counts => ?_
    cases counts with
    | true => exact ih { own with output := some table }
    | false => simp only [Bool.false_eq_true, if_false, ih, map_bind, bind_map_left, map_pure]

theorem takeInputs_over (own before : Carried) (tables : List Value) :
    takeInputs st (own.over before) tables = (·.over before) <$> takeInputs st own tables := by
  induction tables generalizing own with
  | nil => rfl
  | cons table tables ih =>
    simp only [takeInputs, map_bind]
    refine bind_congr fun isModel => ?_
    cases isModel with
    | true =>
      simp only [if_true, map_bind]
      exact bind_congr fun name => ih { own with modelInterface := some name }
    | false => exact ih { own with input := some table, modelInterface := some (.text "") }

theorem takeElement_over (st : Settings) (before : Carried) (e : Value) :
    takeElement st before e = (fun p => (p.1.over before, p.2)) <$> takeElement st {} e := by
  have houtputs : ∀ tables, takeOutputs st before tables = _ := takeOutputs_over {} before
  simp only [takeElement, houtputs, takeInputs_over, map_bind, bind_map_left]
  refine bind_congr fun statements => bind_congr fun outputs => bind_congr fun p => bind_congr fun inputs =>
    bind_congr fun c => bind_congr fun hasBody => ?_
  cases hasBody with
  | false => simp only [Bool.false_eq_true, if_false, pure_bind, map_bind, map_pure]
  | true =>
    simp only [if_true, map_bind, pure_bind, map_pure]
    rfl

/-! ## Which parts are set -/

inductive Part where
  | output
  | input
  | model
  | algo
  | call

def Carried.Has (c : Carried) : Part → Prop
  | .output => c.output.isSome
  | .input => c.input.isSome
  | .model => c.modelInterface.isSome
  | .algo => c.algo.isSome
  | .call => c.call.isSome

theorem Carried.has_over {before : Carried} {p : Part} : (own.over before).Has p ↔ own.Has p ∨ before.Has p := by
  cases p <;> simp [Has, Carried.over]

theorem Carried.not_has_empty (p : Part) : ¬ ({} : Carried).Has p := by
  cases p <;> simp [Has]

theorem Carried.exists_of_has (h : ∀ p, c.Has p) : ∃ output input model algo call,
    c = ⟨some output, some input, some model, some algo, some call⟩ := by
  obtain ⟨output, houtput⟩ := Option.isSome_iff_exists.1 (h .output)
  obtain ⟨input, hinput⟩ := Option.isSome_iff_exists.1 (h .input)
  obtain ⟨model, hmodel⟩ := Option.isSome_iff_exists.1 (h .model)
  obtain ⟨algo, halgo⟩ := Option.isSome_iff_exists.1 (h .algo)
  obtain ⟨call, hcall⟩ := Option.isSome_iff_exists.1 (h .call)
  exact ⟨output, input, model, algo, call, by rw [← houtput, ← hinput, ← hmodel, ← halgo, ← hcall]⟩

theorem Carried.over_of_has (h : ∀ p, own.Has p) (before : Carried) : own.over before = own := by
  obtain ⟨output, input, model, algo, call, rfl⟩ := exists_of_has h
  rfl

theorem takeElement_of_all {signature : String} (h : takeElement st {} e = .ok (own, signature)) (hall : ∀ p, own.Has p) (before : Carried) :
    takeElement st before e = .ok (own, signature) := by
  rw [takeElement_over, h]
  exact congrArg (fun own => Except.ok (own, signature)) (Carried.over_of_has hall before)

/-! ## The file of an element -/

def filled (template name : String) (replacements : Fields) : Outcome (String × String) := do
  let text ← if replacements.isEmpty then pure template else substituteFields replacements template
  return (name, text)

theorem filled_becomes {m : List (String × String)} (hkeys : m ≠ [] ∧ (m.map Prod.fst).Nodup ∧ "" ∉ m.map Prod.fst)
    (template name : String) : ∃ text, filled template name (textFields m) = .ok (name, text) ∧
      Text.Becomes (tableKeys m) (tableText (textFields m)) template.toList text.toList := by
  obtain ⟨segs, hsplits, hout⟩ := substituteValue_ofTable hkeys.1 hkeys.2.1 hkeys.2.2 template
  have hne : (textFields m).isEmpty = false := by simpa [textFields] using hkeys.1
  refine ⟨_, ?_, segs, hsplits, String.toList_ofList.symm⟩
  have hfields : substituteFields (textFields m) template = _ := (substituteValue_record _ _).symm.trans hout
  rw [filled, hfields, hne]
  rfl

def classKeys : List String :=
  ["<<AMDP_NAME>>", "<<ALGO>>", "<<INPUT_SIGNATURE>>", "<<OUTPUT_SIGNATURE>>", "<<FUNCTION>>", "<<INPUT>>", "<<OUTPUT>>",
   "<<USING_STATEMENT>>", "<<MODEL_SELECT>>", "<<CALL_STATEMENT>>", "<<DECLARATIONS>> "]

theorem classFile_texts {schema app type type' d o : String} (model algo signature call : String) {input output : Value} {p : Purpose}
    (hst : st.entry Setting.schema = .ok (.text schema) ∧ st.entry Setting.appId = .ok (.text app))
    (hinput : input.entry "abap_type" = .ok (.text type) ∧ input.entry "interface_name" = .ok (.text d))
    (houtput : output.entry "abap_type" = .ok (.text type') ∧ output.entry "interface_name" = .ok (.text o))
    (hp : purposeOf st output = .ok (some p)) :
    ∃ m, classFile st input (.text model) output (.text signature) (.text algo) (.text call) =
        .ok (algo ++ "_" ++ p.word ++ ".txt", textFields m) ∧
      m.map Prod.fst = classKeys ∧ ("<<CALL_STATEMENT>>", methodCall schema d o model algo p call) ∈ m := by
  refine ⟨classKeys.zip [app ++ "_" ++ algo ++ "_" ++ p.word, algo, type, type', p.methodName, p.word, p.result, p.usingClause,
    p.modelSelect, methodCall schema d o model algo p call, p.declarations (if p = .train then signature else "")], ?_, rfl, by simp [classKeys]⟩
  simp only [classFile, hst, hinput, houtput, hp, bind, Except.bind, Value.asText, Value.asTextReceiver]
  cases p <;> rfl

def fileOf (st : Settings) (c : Carried) (signature : String) : Outcome (String × String) :=
  match c.input, c.modelInterface, c.output, c.algo, c.call with
  | some input, some model, some output, some algo, some call => do
      let (name, replacements) ← classFile st input model output (.text signature) algo (.text call)
      filled classText name replacements
  | _, _, _, _, _ => throw .unset

theorem fileOf_eq {input model output algo : Value} {call name signature : String} {replacements : Fields}
    (h : classFile st input model output (.text signature) algo (.text call) = .ok (name, replacements)) :
    fileOf st ⟨some output, some input, some model, some algo, some call⟩ signature = filled classText name replacements := by
  simp only [fileOf, h, bind, Except.bind]

def elementFile (st : Settings) (c : Carried) (e : Value) : Outcome (Option (String × String)) := do
  if !(← isWanted e) then return none
  if !(← e.has "sql") then return none
  let (c, signature) ← takeElement st c e
  return some (← fileOf st c signature)

def writeFound (path : Value) : Option (String × String) → Job Unit
  | none => pure ()
  | some (name, text) => Job.writeFile path (.text name) text

theorem writeText_eq (path : Value) (template name : String) (replacements : Fields) (t : Session) :
    Job.writeText path name template replacements t =
      (liftM (filled template name replacements) >>= fun f => writeFound path (some f)) t := by
  simp only [Job.writeText, filled]
  cases replacements.isEmpty with
  | true => rfl
  | false =>
    simp only [bind, Except.bind]
    cases substituteFields replacements template <;> rfl

theorem writeClass_eq (path : Value) (c : Carried) (signature : String) (t : Session) :
    writeClass path c signature t = (liftM (fileOf t.settings c signature) >>= fun f => writeFound path (some f)) t := by
  obtain ⟨output, input, model, algo, call⟩ := c
  rcases output with - | output <;> rcases input with - | input <;> rcases model with - | model <;>
    rcases algo with - | algo <;> rcases call with - | call <;> try rfl
  simp only [writeClass, writeMethod, run_get_bind, fileOf]
  rcases classFile t.settings input model output (.text signature) algo (.text call) with f | ⟨name, replacements⟩
  · rfl
  · exact writeText_eq path classText name replacements t

theorem fileOf_unset {p : Part} (h : ¬ c.Has p) (signature : String) : fileOf st c signature = .error .unset := by
  obtain ⟨output, input, model, algo, call⟩ := c
  rcases output with - | output <;> rcases input with - | input <;> rcases model with - | model <;>
    rcases algo with - | algo <;> rcases call with - | call <;> try rfl
  exact (h (by cases p <;> rfl)).elim

def Wanted (e : Value) : Prop := isWanted e = .ok true ∧ e.has "sql" = .ok true

theorem generateElement_wanted (hw : Wanted e) : generateElement c e t =
    (liftM (takeElement t.settings c e) >>= fun p => Job.setting Setting.abapPath >>= fun path =>
      writeClass path p.1 p.2 >>= fun _ => pure p.1 : Job Carried) t := by
  simp only [generateElement, hw.1, hw.2, lift_ok_eq, pure_bind, Bool.not_true, Bool.false_eq_true, if_false, run_get_bind]

theorem elementFile_of_taken {signature : String} (hw : Wanted e) (h : takeElement st c e = .ok (c', signature)) :
    elementFile st c e = (fileOf st c' signature).map some := by
  simp only [elementFile, hw.1, hw.2, h, bind, Except.bind, Bool.not_true, Bool.false_eq_true, if_false]
  cases fileOf st c' signature <;> rfl

theorem elementFile_of_fault {f : Fault} (hw : Wanted e) (h : takeElement st c e = .error f) : elementFile st c e = .error f := by
  simp only [elementFile, hw.1, hw.2, h, bind, Except.bind, Bool.not_true, Bool.false_eq_true, if_false]

theorem not_wanted (hw : ¬ Wanted e) : (∀ c t st, generateElement c e t = .ok c t ∧ elementFile st c e = .ok none) ∨
      ∃ f, ∀ c t st, generateElement c e t = .error f t ∧ elementFile st c e = .error f := by
  simp only [generateElement, elementFile]
  rcases hwanted : isWanted e with f | wanted
  · exact .inr ⟨f, fun c t st => ⟨rfl, rfl⟩⟩
  cases wanted with
  | false => exact .inl fun c t st => ⟨rfl, rfl⟩
  | true =>
    rcases hhas : e.has "sql" with f | hasStatements
    · exact .inr ⟨f, fun c t st => ⟨rfl, rfl⟩⟩
    cases hasStatements with
    | false => exact .inl fun c t st => ⟨rfl, rfl⟩
    | true => exact (hw ⟨hwanted, hhas⟩).elim

theorem generateElement_eq {path : Value} (hpath : t.settings.entry Setting.abapPath = .ok path) (c : Carried) (e : Value) :
    (generateElement c e >>= fun _ => pure ()) t = (liftM (elementFile t.settings c e) >>= writeFound path) t := by
  by_cases hw : Wanted e
  · have hpath' : Job.setting Setting.abapPath t = .ok path t := run_lift_of_ok hpath
    rw [run_bind_congr (generateElement_wanted hw) fun _ _ _ => rfl]
    rcases htaken : takeElement t.settings c e with f | ⟨c', signature⟩
    · rw [elementFile_of_fault hw htaken]
      rfl
    · rw [elementFile_of_taken hw htaken]
      simp only [lift_ok_eq, pure_bind, bind_assoc]
      rw [run_bind_of_ok hpath']
      simp only [bind_pure_unit, writeClass_eq]
      rcases fileOf t.settings c' signature <;> rfl
  · rcases not_wanted hw with h | ⟨f, h⟩
    · rw [run_bind_of_ok (h c t t.settings).1, (h c t t.settings).2]
      rfl
    · rw [(h c t t.settings).2]
      show EStateM.bind _ _ t = _
      rw [EStateM.bind, (h c t t.settings).1]
      rfl

/-! ## What was set before an element -/

def Carried.Counts (st : Settings) (c : Carried) : Prop :=
  ∀ table, c.output = some table → isOneOf st table [.model, .fitted] = .ok true

theorem takeOutputs_counts {tables others : List Value} (h : takeOutputs st c tables = .ok (c', others)) (hc : c.Counts st) :
    c'.Counts st := by
  induction tables generalizing c others with
  | nil => exact (Prod.mk.inj (Except.ok.inj h)).1 ▸ hc
  | cons table tables ih =>
    simp only [takeOutputs, bind_ok] at h
    obtain ⟨counts, hcounts, h⟩ := h
    cases counts with
    | true =>
      refine ih h fun other hother => ?_
      cases hother
      exact hcounts
    | false =>
      simp only [Bool.false_eq_true, if_false, bind_ok, pure_ok] at h
      obtain ⟨⟨c1, others'⟩, hrest, heq⟩ := h
      cases heq
      exact ih hrest hc

theorem takeInputs_output {tables : List Value} (h : takeInputs st c tables = .ok c') : c'.output = c.output := by
  induction tables generalizing c with
  | nil => exact congrArg Carried.output (Except.ok.inj h).symm
  | cons table tables ih =>
    simp only [takeInputs, bind_ok] at h
    obtain ⟨isModel, -, h⟩ := h
    cases isModel with
    | true =>
      simp only [if_true, bind_ok] at h
      obtain ⟨name, -, h⟩ := h
      have := ih h
      exact this
    | false =>
      have := ih (if_neg Bool.false_ne_true ▸ h)
      exact this

theorem takeElement_counts {signature : String} (h : takeElement st {} e = .ok (own, signature)) : own.Counts st := by
  simp only [takeElement, bind_ok] at h
  obtain ⟨statements, -, outputs, -, ⟨c1, others⟩, houtputs, inputs, -, c2, hinputs, hasBody, -, h⟩ := h
  have hsame : own.output = c2.output := by
    cases hasBody with
    | false =>
      simp only [Bool.false_eq_true, if_false, bind_ok, pure_ok, Prod.mk.injEq] at h
      obtain ⟨_, rfl, _, -, rfl, -⟩ := h
      rfl
    | true =>
      simp only [if_true, bind_ok, pure_ok, Prod.mk.injEq] at h
      obtain ⟨algo, -, body, -, item, -, call, -, _, rfl, _, -, rfl, -⟩ := h
      rfl
  have hcounts : c1.Counts st := takeOutputs_counts houtputs fun table h => nomatch h
  intro table htable
  exact hcounts table (by rw [← takeInputs_output hinputs, ← hsame, htable])

theorem Carried.Counts.over {before : Carried} (hown : own.Counts st) (hbefore : before.Counts st) : (own.over before).Counts st := by
  intro table h
  rcases houtput : own.output with - | output
  · exact hbefore table (by simpa [Carried.over, houtput] using h)
  · exact hown table (by simpa [Carried.over, houtput] using h)

def Sets (st : Settings) (e : Value) (p : Part) : Prop :=
  Wanted e ∧ ∃ own signature, takeElement st {} e = .ok (own, signature) ∧ own.Has p

theorem generateElement_ok (h : generateElement c e t = .ok c' t') :
    t'.settings = t.settings ∧ (∀ p, c'.Has p ↔ c.Has p ∨ Sets t.settings e p) ∧ (c.Counts t.settings → c'.Counts t.settings) := by
  by_cases hw : Wanted e
  · rw [generateElement_wanted hw, takeElement_over] at h
    simp only [run_parts] at h
    obtain ⟨⟨c1, signature⟩, htaken, path, t1, hpath, u, t2, hclass, h⟩ := h
    cases h
    rcases hown : takeElement t.settings {} e with f | ⟨own, signature'⟩
    · rw [hown] at htaken
      cases htaken
    · rw [hown] at htaken
      obtain ⟨rfl, rfl⟩ := Prod.mk.inj (Except.ok.inj htaken)
      refine ⟨?_, fun p => ?_, (takeElement_counts hown).over⟩
      · rw [writeClass_eq] at hclass
        simp only [run_parts] at hclass
        obtain ⟨file, -, hfile⟩ := hclass
        obtain ⟨_, _, -, -, hsettings, -⟩ := Job.writeFile_ok hfile
        rw [hsettings, (run_lift_ok.1 hpath).2]
      · rw [Carried.has_over, or_comm]
        refine or_congr_right ⟨fun h => ⟨hw, own, signature', hown, h⟩, ?_⟩
        rintro ⟨-, own', signature'', hown', h⟩
        obtain ⟨rfl, -⟩ := Prod.mk.inj (ok_unique hown hown')
        exact h
  · rcases not_wanted hw with hrun | ⟨f, hrun⟩
    · obtain ⟨rfl, rfl⟩ := EStateM.Result.ok.inj ((hrun c t t.settings).1.symm.trans h)
      exact ⟨rfl, fun p => by simp [Sets, hw], id⟩
    · exact nomatch (hrun c t t.settings).1.symm.trans h

theorem generateElements_ok {es : List Value} (h : es.foldlM generateElement c t = .ok c' t') :
    t'.settings = t.settings ∧ (∀ p, c'.Has p ↔ c.Has p ∨ ∃ e ∈ es, Sets t.settings e p) ∧
      (c.Counts t.settings → c'.Counts t.settings) := by
  induction es generalizing c t with
  | nil =>
    cases h
    exact ⟨rfl, fun p => by simp, id⟩
  | cons e es ih =>
    rw [List.foldlM_cons] at h
    obtain ⟨c1, t1, hstep, hrest⟩ := run_bind_ok.1 h
    obtain ⟨hsettings, hhas, hcounts⟩ := generateElement_ok hstep
    obtain ⟨hsettings', hhas', hcounts'⟩ := ih hrest
    rw [hsettings] at hsettings' hhas' hcounts'
    refine ⟨hsettings', fun p => ?_, hcounts' ∘ hcounts⟩
    rw [hhas', hhas, List.exists_mem_cons_iff, or_assoc]

/-! ## Faults of files -/

def Told (x : Outcome α) : Prop := x ≠ .error .unset

theorem told_ok (a : α) : Told (.ok a) := nofun

theorem Told.bind {x : Outcome α} {f : α → Outcome β} (hx : Told x) (hf : ∀ a, x = .ok a → Told (f a)) : Told (x >>= f) := by
  cases x with
  | error e => exact fun h => hx (congrArg Except.error (Except.error.inj h))
  | ok a => exact hf a rfl

theorem told_entry (v : Value) (key : String) : Told (v.entry key) := by
  unfold Value.entry
  split
  · split <;> exact nofun
  · exact nofun

theorem told_settingsEntry (key : String) : Told (st.entry key) := by
  unfold Settings.entry need
  cases Fields.get? st key <;> exact nofun

theorem told_asText (v : Value) : Told v.asText := by
  cases v <;> exact nofun

theorem told_inserted (v : Value) : Told (Text.inserted v) := by
  cases v <;> exact nofun

theorem told_filler (m : Text.Substitution) : Told (Text.filler m) := by
  unfold Text.filler
  cases m.lookup [] with
  | none => exact told_ok _
  | some v => exact told_inserted v

theorem told_substituteFrom (m : Text.Substitution) (skip : Nat) (cs : List Char) : Told (Text.substituteFrom m skip cs) := by
  induction cs generalizing skip with
  | nil =>
    cases skip with
    | zero => exact told_filler m
    | succ skip => exact told_ok _
  | cons c cs ih =>
    cases skip with
    | succ skip => exact ih skip
    | zero =>
      unfold Text.substituteFrom
      cases Text.longestMatch? m (c :: cs) with
      | none => exact (told_filler m).bind fun _ _ => (ih _).bind fun _ _ => told_ok _
      | some p => exact (told_inserted p.2).bind fun _ _ => (ih _).bind fun _ _ => told_ok _

theorem told_filled (template name : String) (replacements : Fields) : Told (filled template name replacements) := by
  unfold filled
  cases hempty : replacements.isEmpty with
  | true => exact told_ok _
  | false =>
    refine Told.bind (Told.bind ?_ fun _ _ => told_ok _) fun _ _ => told_ok _
    unfold Text.substitute
    split
    · exact nofun
    · exact told_substituteFrom _ _ _

theorem purposeOf_counts {table : Value} (h : isOneOf st table [.model, .fitted] = .ok true) : ∃ p, purposeOf st table = .ok (some p) := by
  simp only [isOneOf, bind_ok] at h
  obtain ⟨category, hcategory, isModel, hmodel, h⟩ := h
  simp only [purposeOf, isOneOf, hcategory, hmodel, bind, Except.bind]
  cases isModel with
  | true => exact ⟨.train, rfl⟩
  | false =>
    simp only [Bool.false_eq_true, if_false, bind_ok] at h
    obtain ⟨category', hcategory', isFitted, hfitted, h⟩ := h
    obtain rfl := ok_unique hcategory hcategory'
    cases isFitted with
    | true => exact ⟨.apply, by rw [hfitted]; rfl⟩
    | false => cases h

theorem told_fileOf (h : ∀ p, c.Has p) (hcounts : c.Counts st) (signature : String) : Told (fileOf st c signature) := by
  obtain ⟨output, input, model, algo, call, rfl⟩ := Carried.exists_of_has h
  obtain ⟨purpose, hpurpose⟩ := purposeOf_counts (hcounts output rfl)
  refine Told.bind ?_ fun _ _ => told_filled _ _ _
  refine (told_settingsEntry _).bind fun schema _ => (told_settingsEntry _).bind fun appId _ => ?_
  refine (told_entry _ _).bind fun inputType _ => (told_entry _ _).bind fun outputType _ => ?_
  refine (told_entry _ _).bind fun inputName _ => (told_entry _ _).bind fun outputName _ => ?_
  rw [hpurpose]
  refine Told.bind (told_ok _) fun found hfound => ?_
  cases hfound
  cases purpose <;> exact Told.bind (told_ok _) fun _ _ => (told_asText _).bind fun _ _ => (told_asText _).bind fun _ _ =>
      Told.bind (told_ok _) fun _ _ => (told_asText _).bind fun _ _ => (told_asText _).bind fun _ _ =>
        (told_asText _).bind fun _ _ => (told_asText _).bind fun _ _ => told_ok _

/-! ## Elements alone -/

/-- What an element brings about is what it brings about alone just if it trains or applies no model, fails while its parts are
taken, sets all parts, or misses a part that no element before it has set. -/
theorem elementFile_alone_iff {pre : List Value} (hrun : pre.foldlM generateElement {} t = .ok c t') {path : Value}
    (hpath : t.settings.entry Setting.abapPath = .ok path) (e : Value) :
    (∀ before s, s.settings = t.settings →
      (generateElement before e >>= fun _ => pure ()) s = (liftM (elementFile t.settings before e) >>= writeFound path) s) ∧
    (elementFile t.settings c e = elementFile t.settings {} e ↔
      ¬ Wanted e ∨ (∃ f, takeElement t.settings {} e = .error f) ∨ (∀ p, Sets t.settings e p) ∨
        ∃ p, ¬ Sets t.settings e p ∧ ∀ e' ∈ pre, ¬ Sets t.settings e' p) := by
  refine ⟨fun before s hs => hs ▸ generateElement_eq (hs ▸ hpath) before e, ?_⟩
  obtain ⟨-, hhas, hcounts⟩ := generateElements_ok hrun
  by_cases hw : Wanted e
  swap
  · refine iff_of_true ?_ (.inl hw)
    rcases not_wanted hw with h | ⟨f, h⟩ <;> rw [(h c t _).2, (h {} t _).2]
  rcases hown : takeElement t.settings {} e with f | ⟨own, signature⟩
  · refine iff_of_true ?_ (.inr (.inl ⟨f, rfl⟩))
    rw [elementFile_of_fault hw hown, elementFile_of_fault hw (by rw [takeElement_over, hown]; rfl)]
  have hsets : ∀ p, Sets t.settings e p ↔ own.Has p := by
    refine fun p => ⟨?_, fun h => ⟨hw, own, signature, hown, h⟩⟩
    rintro ⟨-, own', signature', hown', h⟩
    obtain ⟨rfl, -⟩ := Prod.mk.inj (ok_unique hown hown')
    exact h
  have htaken : takeElement t.settings c e = .ok (own.over c, signature) := by
    rw [takeElement_over, hown]
    rfl
  rw [elementFile_of_taken hw hown, elementFile_of_taken hw htaken]
  simp only [hsets, hw, not_true_eq_false, reduceCtorEq, exists_false, false_or]
  by_cases hall : ∀ p, own.Has p
  · rw [Carried.over_of_has hall]
    exact iff_of_true rfl (.inl hall)
  obtain ⟨q, hq⟩ := not_forall.1 hall
  have halone : (fileOf t.settings own signature).map some = .error .unset := by rw [fileOf_unset hq]; rfl
  rw [halone]
  by_cases hmissing : ∃ p, ¬ own.Has p ∧ ∀ e' ∈ pre, ¬ Sets t.settings e' p
  · obtain ⟨p, hp, hpre⟩ := hmissing
    have hp' : ¬ (own.over c).Has p := by
      rw [Carried.has_over, hhas]
      rintro (h | h | ⟨e', he', h⟩)
      · exact hp h
      · exact Carried.not_has_empty p h
      · exact hpre e' he' h
    refine iff_of_true ?_ (.inr ⟨p, hp, hpre⟩)
    rw [fileOf_unset hp']
    rfl
  · refine iff_of_false ?_ (not_or.2 ⟨hall, hmissing⟩)
    have hfull : ∀ p, (own.over c).Has p := by
      intro p
      rw [Carried.has_over, hhas]
      by_contra h
      simp only [not_or, not_exists, not_and] at h
      exact hmissing ⟨p, h.1, h.2.2⟩
    have htold := told_fileOf hfull ((takeElement_counts hown).over (hcounts fun _ h => nomatch h)) signature
    rcases hfile : fileOf t.settings (own.over c) signature with f | file
    · exact fun h => htold (by rw [hfile, Except.error.inj h])
    · exact nofun

def classSession : Session where
  settings := [(Setting.schema, .text "S"), (Setting.appId, .text "X"), (Setting.abapPath, .text "a")] ++ Settings.builtin
  tree := ⟨[(["a"], .directory)]⟩

def classTable (category name : String) : Value :=
  .object [("cat", .text category), ("interface_name", .text name), ("abap_type", .text "")]

def trainingElement (outputs : List Value) : Value := .object
  [("groups", .list [.object [("type", .text "fit")]]), ("algo", .text "A"),
   ("sql", .object [("input", .list [classTable "DATA" "d"]), ("output", .list outputs),
      ("body", .list [.object [("sql", .text "CALL p"), ("sql_vars", .list [])]])])]

/-- An element without an output that counts fails alone, and behind another one it is written with the output of that one. -/
theorem elementFile_alone_iff_sample : ∃ c t, [trainingElement [classTable "MODEL" "o"]].foldlM generateElement {} classSession = .ok c t ∧
      elementFile classSession.settings c (trainingElement []) ≠ elementFile classSession.settings {} (trainingElement []) := by
  have hfirst : takeElement classSession.settings {} (trainingElement [classTable "MODEL" "o"]) = .ok (⟨some (classTable "MODEL" "o"),
      some (classTable "DATA" "d"), some (.text ""), some (.text "A"), some "CALL p"⟩, "") := rfl
  have hsecond : takeElement classSession.settings {} (trainingElement []) = .ok (⟨none,
      some (classTable "DATA" "d"), some (.text ""), some (.text "A"), some "CALL p"⟩, "") := rfl
  have hwanted : ∀ outputs, Wanted (trainingElement outputs) := fun outputs => ⟨rfl, rfl⟩
  have hpurpose : purposeOf classSession.settings (classTable "MODEL" "o") = .ok (some .train) := rfl
  have hinput : (classTable "DATA" "d").entry "abap_type" = .ok (.text "") ∧ (classTable "DATA" "d").entry "interface_name" = .ok (.text "d") :=
    ⟨rfl, rfl⟩
  obtain ⟨m, hclass, hkeys, hcall⟩ := classFile_texts "" "A" "" "CALL p" ⟨rfl, rfl⟩ hinput ⟨rfl, rfl⟩ hpurpose
  rw [show "A" ++ "_" ++ Purpose.train.word ++ ".txt" = "A_TRAIN.txt" by decide] at hclass
  obtain ⟨text, hfilled, -⟩ := filled_becomes ⟨List.ne_nil_of_mem hcall, hkeys ▸ by decide, hkeys ▸ by decide⟩ classText "A_TRAIN.txt"
  obtain ⟨t, hwrite⟩ : ∃ t, Job.writeFile (.text "a") (.text "A_TRAIN.txt") text classSession = .ok () t := ⟨_, rfl⟩
  have hfile : elementFile classSession.settings {} (trainingElement [classTable "MODEL" "o"]) = .ok (some ("A_TRAIN.txt", text)) := by
    rw [elementFile_of_taken (hwanted _) hfirst, fileOf_eq hclass, hfilled]
    rfl
  have hwritten : (generateElement {} (trainingElement [classTable "MODEL" "o"]) >>= fun _ => pure ()) classSession = .ok () t := by
    rw [generateElement_eq rfl, hfile, lift_ok_eq, pure_bind]
    exact hwrite
  obtain ⟨c, t', hstep, hend⟩ := run_bind_ok.1 hwritten
  obtain ⟨-, rfl⟩ := run_pure_ok.1 hend
  have hrun : [trainingElement [classTable "MODEL" "o"]].foldlM generateElement {} classSession = .ok c t' := by
    rw [List.foldlM_cons, run_bind_of_ok hstep]
    rfl
  refine ⟨c, t', hrun, fun heq => ?_⟩
  have hsets : ∀ p, p ≠ .output → Sets classSession.settings (trainingElement []) p := by
    rintro (_ | _ | _ | _ | _) hp
    · exact (hp rfl).elim
    all_goals exact ⟨hwanted [], _, _, hsecond, rfl⟩
  rcases (elementFile_alone_iff hrun rfl (trainingElement [])).2.1 heq with h | ⟨f, h⟩ | h | ⟨p, h, hpre⟩
  · exact h (hwanted [])
  · exact nomatch hsecond.symm.trans h
  · obtain ⟨-, own, signature, hown, h⟩ := h .output
    obtain ⟨rfl, -⟩ := Prod.mk.inj (ok_unique hsecond hown)
    exact nomatch h
  · obtain rfl : p = .output := by_contra fun hp => h (hsets p hp)
    exact hpre _ (.head _) ⟨hwanted _, _, _, hfirst, rfl⟩

end TraceArtifacts.Managed
