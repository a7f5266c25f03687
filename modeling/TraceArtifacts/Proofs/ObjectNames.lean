import TraceArtifacts.Proofs.Bodies
import TraceArtifacts.Proofs.Signatures

/-!
# Proofs: the names of database objects

The name of the object that keeps an output is made of algorithm, function and signature name, of which only alphanumeric characters
are kept, and is cut to its greatest length.
-/

namespace TraceArtifacts.Text

theorem ofNat_eq_underscore {n : Nat} (h : Char.ofNat n = '_') : n = 95 := by
  by_cases hv : n.isValidChar
  · rw [Char.ofNat, dif_pos hv] at h
    exact congrArg Char.toNat h
  · rw [Char.ofNat, dif_neg hv] at h
    cases congrArg Char.toNat h

theorem eq_underscore_of_lowerChar {c : Char} (h : '_' ∈ lowerChar c) : c = '_' := by
  have hsmall : ∀ n < 128, (Char.ofNat n).toLower = '_' → Char.ofNat n = '_' := by decide
  have hrows : lowerExpansions.all (fun p => p.2.all fun n => n != 95) = true := by decide
  have hruns : lowerRuns.all (fun r => decide (95 < (r.first : Int) + r.shift)) = true := by decide +kernel
  rw [lowerChar] at h
  split at h
  · next hc =>
    have hlower := hsmall c.toNat (UInt32.lt_iff_toNat_lt.1 hc)
    rw [Char.ofNat_toNat] at hlower
    exact hlower (List.mem_singleton.1 h).symm
  · split at h
    · next ns hns =>
      obtain ⟨n, hn, hchar⟩ := List.mem_map.1 h
      obtain ⟨_, _, hrow, -⟩ := List.lookup_eq_some_iff.1 hns
      have hne := List.all_eq_true.1 (List.all_eq_true.1 hrows (c.toNat, ns) (by rw [hrow]; simp)) n hn
      rw [ofNat_eq_underscore hchar] at hne
      cases hne
    · cases hshift : shiftBy lowerRuns c.toNat with
      | none =>
        rw [hshift] at h
        exact (List.mem_singleton.1 h).symm
      | some m =>
        -- a run that the character is in moves it beyond the underscore
        rw [hshift] at h
        have hm : m = 95 := ofNat_eq_underscore (List.mem_singleton.1 h).symm
        obtain ⟨r, hr, hshifted⟩ := Option.map_eq_some_iff.1 hshift
        rw [Int.ofNat_eq_natCast] at hshifted
        have hin := List.find?_some hr
        have hbeyond := of_decide_eq_true (List.all_eq_true.1 hruns r (List.mem_of_find?_eq_some hr))
        simp only [Bool.and_eq_true, decide_eq_true_eq] at hin
        omega

theorem underscore_not_mem_lower {s : List Char} (h : '_' ∉ s) : '_' ∉ lower s := by
  have hfrom : ∀ (before : List Char), '_' ∉ lowerFrom before s := by
    induction s with
    | nil => exact fun _ => List.not_mem_nil
    | cons c s ih =>
      obtain ⟨hc, hs⟩ := List.ne_and_not_mem_of_not_mem_cons h
      intro before hmem
      rcases List.mem_append.1 hmem with hmem | hmem
      · unfold lowerBetween at hmem
        split at hmem
        · split at hmem <;> cases List.mem_singleton.1 hmem
        · exact hc (eq_underscore_of_lowerChar hmem).symm
      · exact ih hs _ hmem
  exact hfrom []

theorem append_stop_inj {x : Char} {a b r s : List Char} (ha : x ∉ a) (hb : x ∉ b) (h : a ++ x :: r = b ++ x :: s) : a = b ∧ r = s := by
  induction a generalizing b with
  | nil =>
    cases b with
    | nil => exact ⟨rfl, (List.cons.inj h).2⟩
    | cons c b => exact absurd (List.cons.inj h).1 (List.ne_and_not_mem_of_not_mem_cons hb).1
  | cons c a ih =>
    cases b with
    | nil => exact absurd (List.cons.inj h).1.symm (List.ne_and_not_mem_of_not_mem_cons ha).1
    | cons d b =>
      obtain ⟨rfl, htail⟩ := List.cons.inj h
      obtain ⟨rfl, rfl⟩ := ih (List.ne_and_not_mem_of_not_mem_cons ha).2 (List.ne_and_not_mem_of_not_mem_cons hb).2 htail
      exact ⟨rfl, rfl⟩

end TraceArtifacts.Text

namespace TraceArtifacts

open Text

variable {x y : ProcedureName}

/-! ## Plain parts -/

theorem underscore_not_mem_plainLower (s : String) : '_' ∉ (plainLower s).toList := by
  have hplain : '_' ∉ (plainText s).toList := by
    rw [plainText, String.toList_ofList]
    intro hmem
    exact absurd (List.mem_filter.1 hmem).2 (by decide)
  rw [plainLower, lowerText, String.toList_ofList]
  exact underscore_not_mem_lower hplain

theorem plainLower_plainText (s : String) : plainLower (plainText s) = plainLower s := by
  simp [plainLower, plainText, alphanumerics, List.filter_filter]

theorem plainValue_text (s : String) : plainValue (.text s) = .ok (plainText s) := by
  have hparts : ∀ cs : List Char, (cs.map fun c => Value.text c.toString).mapM Value.asTextReceiver = .ok (cs.map Char.toString) := by
    intro cs
    rw [mapM_ok, List.forall₂_map_left_iff, List.forall₂_map_right_iff]
    exact List.forall₂_same.2 fun _ _ => rfl
  have hjoin : ∀ cs : List Char, (String.join ((cs.map Char.toString).filter isPlain)).toList = alphanumerics cs := by
    intro cs
    induction cs with
    | nil => rfl
    | cons c cs ih =>
      have hplain : isPlain c.toString = isAlphanumeric c := by simp [isPlain, Char.toString]
      rw [String.toList_join] at ih ⊢
      rw [List.map_cons, List.filter_cons, hplain, alphanumerics, List.filter_cons]
      split
      · rw [List.flatMap_cons, ih]
        simp [alphanumerics, Char.toString]
      · exact ih
  have hmembers : (Value.text s).members = .ok (s.toList.map fun c => .text c.toString) := rfl
  rw [plainValue, hmembers]
  show ((s.toList.map fun c => Value.text c.toString).mapM Value.asTextReceiver >>= fun parts =>
    pure (String.join (parts.filter isPlain))) = _
  rw [hparts]
  exact congrArg Except.ok (String.toList_inj.1 ((hjoin s.toList).trans String.toList_ofList.symm))

/-! ## Names of objects -/

def objectFront (x : ProcedureName) : List Char :=
  (plainLower x.1).toList ++ '_' :: ((plainLower x.2).toList ++ ['_'])

theorem toList_objectNameOf (x : ProcedureName) (interface : String) : (objectNameOf [x.1, x.2, interface]).toList =
    (objectFront x ++ (plainLower interface).toList).take greatestNameLength := by
  simp [objectNameOf, objectFront]

theorem objectFront_append_inj {r s : List Char} (h : objectFront x ++ r = objectFront y ++ s) :
    plainLower x.1 = plainLower y.1 ∧ plainLower x.2 = plainLower y.2 ∧ r = s := by
  have hfront : ∀ (z : ProcedureName) (s : List Char), objectFront z ++ s =
      (plainLower z.1).toList ++ '_' :: ((plainLower z.2).toList ++ '_' :: s) := by
    intro z s
    simp [objectFront]
  rw [hfront, hfront] at h
  obtain ⟨halgo, h⟩ := append_stop_inj (underscore_not_mem_plainLower _) (underscore_not_mem_plainLower _) h
  obtain ⟨hfunction, h⟩ := append_stop_inj (underscore_not_mem_plainLower _) (underscore_not_mem_plainLower _) h
  exact ⟨String.toList_inj.1 halgo, String.toList_inj.1 hfunction, h⟩

theorem objectFront_eq_of_starts {w : List Char} (h : objectFront x <+: objectFront y ++ w) : objectFront x = objectFront y := by
  obtain ⟨r, hr⟩ := h
  obtain ⟨halgo, hfunction, -⟩ := objectFront_append_inj hr
  rw [objectFront, objectFront, halgo, hfunction]

theorem toList_procedureNameOf (x : ProcedureName) : (procedureNameOf x.1 x.2).toList ++ ['_'] = "base_".toList ++ objectFront x := by
  simp [procedureNameOf, objectFront]

theorem procedureNameOf_eq_iff : procedureNameOf x.1 x.2 = procedureNameOf y.1 y.2 ↔ objectFront x = objectFront y := by
  rw [← String.toList_inj, ← List.append_left_inj ['_'], toList_procedureNameOf, toList_procedureNameOf, List.append_right_inj]

/-- When the outputs of two procedures with these signature names are kept in one object: one procedure name and signature names that
agree in all alphanumeric characters that the name has room for, or different procedure names that leave no room at all. -/
def SharesObject (x : ProcedureName) (interface : String) (y : ProcedureName) (interface' : String) : Prop :=
  procedureNameOf x.1 x.2 = procedureNameOf y.1 y.2 ∧ (plainLower interface).toList.take (greatestNameLength - (objectFront x).length) =
        (plainLower interface').toList.take (greatestNameLength - (objectFront x).length) ∨
    procedureNameOf x.1 x.2 ≠ procedureNameOf y.1 y.2 ∧ greatestNameLength < (objectFront x).length ∧
      greatestNameLength < (objectFront y).length ∧
      (objectFront x).take greatestNameLength = (objectFront y).take greatestNameLength

theorem objectNameOf_eq_iff (x : ProcedureName) (interface : String) (y : ProcedureName) (interface' : String) :
    objectNameOf [x.1, x.2, interface] = objectNameOf [y.1, y.2, interface'] ↔ SharesObject x interface y interface' := by
  rw [SharesObject, ← String.toList_inj, toList_objectNameOf, toList_objectNameOf, ne_eq, procedureNameOf_eq_iff]
  by_cases hfront : objectFront x = objectFront y
  · rw [hfront, List.take_append, List.take_append, List.append_right_inj]
    simp
  -- a front that the name reaches the end of could be read off from the other name
  have hlong : ∀ {z z' : ProcedureName} {w w' : List Char}, objectFront z ≠ objectFront z' →
      (objectFront z ++ w).take greatestNameLength = (objectFront z' ++ w').take greatestNameLength →
      greatestNameLength < (objectFront z).length := by
    intro z z' w w' hne heq
    by_contra hshort
    have hstarts : objectFront z <+: (objectFront z ++ w).take greatestNameLength := by
      rw [List.take_append, List.take_of_length_le (Nat.le_of_not_lt hshort)]
      exact List.prefix_append ..
    rw [heq] at hstarts
    exact hne (objectFront_eq_of_starts (hstarts.trans (List.take_prefix ..)))
  constructor
  · intro heq
    have hx := hlong hfront heq
    have hy := hlong (Ne.symm hfront) heq.symm
    rw [List.take_append_of_le_length hx.le, List.take_append_of_le_length hy.le] at heq
    exact .inr ⟨hfront, hx, hy, heq⟩
  · rintro (⟨he, -⟩ | ⟨-, hx, hy, heq⟩)
    · exact absurd he hfront
    · rw [List.take_append_of_le_length hx.le, List.take_append_of_le_length hy.le, heq]

theorem contextName_inj {context name name' : String} : contextName context name = contextName context name' ↔ name = name' := by
  simp [contextName, ← String.toList_inj]

theorem objectNameFor_text (x : ProcedureName) (interface : String) :
    objectNameFor [.text x.1, .text x.2, .text interface] = .ok (objectNameOf [x.1, x.2, interface]) := by
  have hname : objectNameFor [.text x.1, .text x.2, .text interface] =
      .ok (objectNameOf [plainText x.1, plainText x.2, plainText interface]) := by
    simp [objectNameFor, plainValue_text, bind, Except.bind, pure, Except.pure]
  rw [hname, objectNameOf, objectNameOf]
  simp only [List.map_cons, List.map_nil, plainLower_plainText]

/-! ## Stored procedures -/

section Procedures

variable {s : Session} {Q : ProcedureName → Value → Prop}

omit s Q in
theorem fillConsumption_procedures {t s' : Session} {u : Unit} (h : fillConsumption t = .ok u s') {layers : Value}
    (hl : t.settings.entry Setting.layers = .ok layers) (hf : FreshBase layers) :
    ∃ final, s'.settings.entry Setting.layers = .ok final ∧ ∀ {x o}, procedureAt? final x = some o →
      ∃ o', procedureAt? layers x = some o' ∧ o'.SameBut ["groups", mergedKey] o := by
  obtain ⟨grouped, final, relations, settings, elements, hm, -, hfinal, -⟩ := fillConsumption_kept h hl hf
  obtain ⟨b, hb, hbase⟩ := hm.built
  have hfresh := hm.fresh hf
  obtain ⟨halike, -⟩ := buildConsumption_built hb hfresh.base hfresh.records hm.noted (buildRelations_paired hf.base hm.related)
  refine ⟨final, hfinal, fun ho => ?_⟩
  rw [procedureAt?_congr hbase] at ho
  obtain ⟨o1, ho1, hs1⟩ := halike.procedure' ho
  obtain ⟨o2, ho2, hs2⟩ := hm.procedure ho1
  exact ⟨o2, ho2, (hs2.mono (by simp)).trans (hs1.mono (by simp))⟩

def HoldsStored (s : Session) (Q : ProcedureName → Value → Prop) : Prop :=
  ∀ {x : ProcedureName} {settings : Settings} {p : Prepared} {functions functions' metadata old o : Value} {b : BaseParts},
    (∀ k, k ≠ Setting.layers → Settings.entry settings k = s.settings.entry k) →
    buildBase settings (.text x.1) (.text x.2) p functions = .ok b functions' →
    metadataOf (.text x.1) (.text x.2) = .ok metadata → b.putInto metadata old = .ok o → Q x o

/-- How far processing has come, with a property of the procedures that there are. -/
structure ProgressWith (s : Session) (Q : ProcedureName → Value → Prop) (t : Session) : Prop where
  progress : Progress (fun _ => True) (fun _ => True) s t
  holds : ∀ {layers x o}, t.settings.entry Setting.layers = .ok layers → procedureAt? layers x = some o → Q x o

theorem keeps_progressWith (hQ : HoldsStored s Q) (own : Bool) (x : ProcedureName) :
    Keeps (ProgressWith s Q) (processCall own x.1 x.2) := by
  intro t u t' h hI
  refine ⟨keeps_processCall storesAs_trivial s own x h hI.progress, fun {layers y o} hlayers ho => ?_⟩
  obtain ⟨p, trace, old, b, functions, layers', -, hold, hbuild, hstore, -, hst⟩ := processCall_ok h
  obtain ⟨l, hl, hfilled⟩ := hI.progress.layers
  obtain rfl := ok_unique hl hold
  rw [hst, Settings.entry_set_self] at hlayers
  cases hlayers
  obtain ⟨o', hinto⟩ := storeBase_into hstore hfilled.isBaseLayer
  by_cases hy : y = x
  · subst hy
    obtain rfl := Option.mem_unique hinto.procedure ho
    obtain ⟨metadata, hmetadata, hput⟩ := hinto.put
    exact hQ hI.progress.settings hbuild hmetadata hput
  · rw [hinto.others y hy] at ho
    exact hI.holds hl ho

theorem processTrace_holds (hQ : HoldsStored s Q) (hsame : ∀ {x o o'}, Q x o → o.SameBut ["groups", mergedKey] o' → Q x o')
    {raiseOnError logStatements own : Bool} {s' : Session} {u : Unit}
    (h : processTrace raiseOnError logStatements own s = .ok u s')
    (hl : s.settings.entry Setting.layers = .ok (.object [])) :
    (s.trace.isTruthy = false ∧ s' = s) ∨ ∃ layers, s'.settings.entry Setting.layers = .ok layers ∧
      ∀ {x o}, procedureAt? layers x = some o → Q x o := by
  have hstart : ProgressWith s Q s := by
    refine ⟨⟨fun _ _ => rfl, ⟨_, hl, .inl rfl⟩, trivial⟩, fun {layers x o} hlayers ho => ?_⟩
    obtain rfl := ok_unique hl hlayers
    cases ho
  have hreport : ∀ level text, Keeps (ProgressWith s Q) (Job.report level text) := by
    intro level text t v t' hrun hI
    refine ⟨keeps_report s level text hrun hI.progress, ?_⟩
    cases hrun
    exact hI.holds
  refine (processTrace_ok (keeps_progressWith hQ) hreport h hstart).imp_right ?_
  rintro ⟨-, t, hI, hfill⟩
  obtain ⟨layers, hlayers, hfilled⟩ := hI.progress.layers
  have hfresh : FreshBase layers := by
    obtain ⟨_, _, _, _, hrel, -⟩ := fillConsumption_ok hfill
    obtain ⟨_, -, -, -, -, hrelations, -⟩ := relateAndBuild_ok hrel hlayers
    obtain ⟨base, hbase, -⟩ := bind_ok.1 hrelations
    exact (hfilled.fresh hbase).1
  obtain ⟨final, hfinal, hprocedures⟩ := fillConsumption_procedures hfill hlayers hfresh
  refine ⟨final, hfinal, fun ho => ?_⟩
  obtain ⟨o', ho', hs⟩ := hprocedures ho
  exact hsame (hI.holds hlayers ho') hs

end Procedures

/-! ## The outputs of a session -/

def OutputsNamed (settings : Settings) (x : ProcedureName) (o : Value) : Prop :=
  ∀ {t name}, TableOf "output_tables" o t → t.entry "name" = .ok name →
    ∃ context interface, settings.text Setting.entityContext = .ok context ∧ t.entry "interface_name" = .ok (.text interface) ∧
      t.entry "dbobject_name" = .ok (.text (contextName context (objectNameOf [x.1, x.2, interface])))

theorem holdsStored_outputsNamed (s : Session) : HoldsStored s (OutputsNamed s.settings) := by
  intro x settings p functions functions' metadata old o b hst hbuild hmetadata hput t name ht hname
  obtain ⟨ts, hts, ht⟩ := ht
  obtain ⟨-, -, houtputs, -⟩ := putInto_entries hput
  rw [partsUnder_of_entry houtputs] at hts
  obtain ⟨-, -, -, -, hextended, -⟩ := buildBase_ok.1 hbuild
  unfold extendedIf at hextended
  split at hextended
  · simp only [extendTables, bind_ok, pure_ok, mapM_ok] at hextended
    obtain ⟨_, -, us, hus, hlist⟩ := hextended
    rw [← hlist] at hts
    cases hts
    obtain ⟨t0, -, ht0⟩ := forall₂_mem_right hus ht
    obtain ⟨n, hn⟩ := extendTable_named ht0 (extendTable_has ht0 hname)
    have hobject := hn.object
    rw [objectNameFor_text] at hobject
    have hcontext := hn.context
    rw [Settings.text, hst _ (by decide)] at hcontext
    refine ⟨n.context, n.interface, hcontext, hn.storedInterface, ?_⟩
    rw [hn.storedObject, Except.ok.inj hobject]
  · next hempty =>
    rw [← Except.ok.inj hextended] at hts
    rw [members_of_not_truthy (by simpa using hempty) hts] at ht
    cases ht

theorem OutputsNamed.sameBut {settings : Settings} {o o' : Value} (h : OutputsNamed settings x o)
    (hs : o.SameBut ["groups", mergedKey] o') : OutputsNamed settings x o' := by
  rintro t name ⟨ts, hts, ht⟩ hname
  rw [partsUnder, hs.entryOr (by decide)] at hts
  exact h ⟨ts, hts, ht⟩ hname

theorem processTrace_object_eq_iff {raiseOnError logStatements own : Bool} {s s' : Session} {u : Unit}
    (h : processTrace raiseOnError logStatements own s = .ok u s')
    (hl : s.settings.entry Setting.layers = .ok (.object [])) :
    (s.trace.isTruthy = false ∧ s' = s) ∨ ∃ layers, s'.settings.entry Setting.layers = .ok layers ∧
      ∀ x o t name, procedureAt? layers x = some o → TableOf "output_tables" o t → t.entry "name" = .ok name →
        ∀ x' o' t' name', procedureAt? layers x' = some o' → TableOf "output_tables" o' t' → t'.entry "name" = .ok name' →
          ∃ interface interface' object object', t.entry "interface_name" = .ok (.text interface) ∧
            t'.entry "interface_name" = .ok (.text interface') ∧ t.entry "dbobject_name" = .ok (.text object) ∧
            t'.entry "dbobject_name" = .ok (.text object') ∧ (object = object' ↔ SharesObject x interface x' interface') := by
  refine (processTrace_holds (holdsStored_outputsNamed s) OutputsNamed.sameBut h hl).imp_right ?_
  rintro ⟨layers, hlayers, hnamed⟩
  refine ⟨layers, hlayers, ?_⟩
  intro x o t name ho ht hname x' o' t' name' ho' ht' hname'
  obtain ⟨context, interface, hcontext, hinterface, hobject⟩ := hnamed ho ht hname
  obtain ⟨context', interface', hcontext', hinterface', hobject'⟩ := hnamed ho' ht' hname'
  obtain rfl := ok_unique hcontext hcontext'
  refine ⟨interface, interface', _, _, hinterface, hinterface', hobject, hobject', ?_⟩
  rw [contextName_inj, objectNameOf_eq_iff]

def outputsAt (layers : Value) (x : ProcedureName) : Option (List Value) :=
  (procedureAt? layers x).bind fun o => (partsUnder "output_tables" o).toOption

def outputNamesOf (t : Value) : String × String := (t.textAt "interface_name", t.textAt "dbobject_name")

def alikeOutputs : List Value := [tracedTable "#A_B" "SELECT A_B", tracedTable "#AB" "SELECT AB"]

def sharingSession : Session where
  settings := tracedSession.settings
  trace := .object [("RandomForestClassifier", .object [("Fit", .object [("sql", .ofTexts ["CALL F"]),
    ("output_tables", .list alikeOutputs)])])]

def isShared (s : Session) : Bool :=
  match (s.settings.entry Setting.layers).toOption.bind (outputsAt · ("RandomForestClassifier", "Fit")) with
  | some [t, t'] => (t.entry "name").toOption.isSome && (t'.entry "name").toOption.isSome &&
      (outputNamesOf t).1 != (outputNamesOf t').1 && (outputNamesOf t).2 == (outputNamesOf t').2
  | _ => false

theorem isShared_ok {s : Session} (h : isShared s = true) : ∃ layers o t t' name name',
    s.settings.entry Setting.layers = .ok layers ∧ procedureAt? layers ("RandomForestClassifier", "Fit") = some o ∧
      TableOf "output_tables" o t ∧ TableOf "output_tables" o t' ∧ t.entry "name" = .ok name ∧ t'.entry "name" = .ok name' ∧
      (outputNamesOf t).1 ≠ (outputNamesOf t').1 ∧ (outputNamesOf t).2 = (outputNamesOf t').2 := by
  unfold isShared at h
  split at h
  · next t t' hts =>
    simp only [Bool.and_eq_true, bne_iff_ne, beq_iff_eq] at h
    obtain ⟨⟨⟨hname, hname'⟩, hne⟩, heq⟩ := h
    obtain ⟨name, hname⟩ := Option.isSome_iff_exists.1 hname
    obtain ⟨name', hname'⟩ := Option.isSome_iff_exists.1 hname'
    obtain ⟨layers, hlayers, hts⟩ := Option.bind_eq_some_iff.1 hts
    obtain ⟨o, ho, hts⟩ := Option.bind_eq_some_iff.1 hts
    have hparts := eq_ok_of_toOption hts
    exact ⟨layers, o, t, t', name, name', eq_ok_of_toOption hlayers, ho, ⟨_, hparts, by simp⟩, ⟨_, hparts, by simp⟩,
      eq_ok_of_toOption hname, eq_ok_of_toOption hname', hne, heq⟩
  · cases h

theorem processTrace_object_eq_iff_sample : ∃ s' layers o t t' interface interface',
    processTrace true false true sharingSession = .ok () s' ∧ s'.settings.entry Setting.layers = .ok layers ∧
      procedureAt? layers ("RandomForestClassifier", "Fit") = some o ∧ TableOf "output_tables" o t ∧ TableOf "output_tables" o t' ∧
      t.entry "interface_name" = .ok (.text interface) ∧ t'.entry "interface_name" = .ok (.text interface') ∧ interface ≠ interface' ∧
      SharesObject ("RandomForestClassifier", "Fit") interface ("RandomForestClassifier", "Fit") interface' := by
  have hrun : succeedsWith (fun _ s' => isShared s') (processTrace true false true sharingSession) = true := by decide +kernel
  obtain ⟨_, s', h, hshared⟩ := exists_of_succeedsWith hrun
  obtain ⟨layers, o, t, t', name, name', hl, ho, ht, ht', hname, hname', hne, heq⟩ := isShared_ok hshared
  rcases processTrace_object_eq_iff h rfl with ⟨hempty, -⟩ | ⟨layers', hl', hall⟩
  · exact absurd hempty (by decide)
  · obtain rfl := ok_unique hl hl'
    obtain ⟨interface, interface', object, object', hi, hi', hobject, hobject', hiff⟩ :=
      hall _ o t name ho ht hname _ o t' name' ho ht' hname'
    have htext : ∀ {v : Value} {k r : String}, v.entry k = .ok (.text r) → v.textAt k = r := by
      intro v k r hv
      rw [Value.textAt, Value.get_of_entry hv]
      rfl
    rw [outputNamesOf, outputNamesOf, htext hi, htext hi', htext hobject, htext hobject'] at *
    exact ⟨s', layers, o, t, t', interface, interface', h, hl, ho, ht, ht', hi, hi', hne, hiff.1 heq⟩

/-- Underscores are dropped, so two outputs of one procedure are kept in one object. -/
theorem generateBase_shares_object : ∃ w', generateBase lossySettings (.text "A") (.text "f")
      { functions := .list [], statements := .ofTexts ["CALL F"], inputTables := .list [], outputTables := .list alikeOutputs,
        outputVars := .list [] } { functions := .list [], layers := .object [] } = .ok () w' ∧
    (outputsAt w'.layers ("A", "f")).map (·.map outputNamesOf) =
      some [("lt_a_b_a_f", "\"c.a_f_ltabaf\""), ("lt_ab_a_f", "\"c.a_f_ltabaf\"")] := by
  have hrun : succeedsWith (fun _ w' => (outputsAt w'.layers ("A", "f")).map (·.map outputNamesOf) ==
      some [("lt_a_b_a_f", "\"c.a_f_ltabaf\""), ("lt_ab_a_f", "\"c.a_f_ltabaf\"")])
      (generateBase lossySettings (.text "A") (.text "f")
        { functions := .list [], statements := .ofTexts ["CALL F"], inputTables := .list [], outputTables := .list alikeOutputs,
          outputVars := .list [] } { functions := .list [], layers := .object [] }) = true := by
    decide +kernel
  obtain ⟨_, w', h, hnames⟩ := exists_of_succeedsWith hrun
  exact ⟨w', h, beq_iff_eq.1 hnames⟩

end TraceArtifacts
