import TraceArtifacts.Proofs.Connections
import TraceArtifacts.Proofs.ObjectNames
import TraceArtifacts.Proofs.SchemaPrefix

/-!
# Proofs: names of output ports

Whatever is asked for, the operator of an element has a port for each input that is related, and those of its outputs
(`draftElement_operator`).
-/

namespace TraceArtifacts

namespace Graph

variable {s s' t : DraftState} {c : ElementContext} {e : Element} {ins ins' outs outs' : List Value} {place : Place} {u : Unit}
  {item name : Value}

/-! ## Ports, whatever is asked for -/

/-- The operator that an element is drafted as, and what its script is made of. -/
structure DraftedAs (settings : Settings) (e : Element) (s : DraftState) (o : Operator) (script : String) : Prop where
  listed : o.toEntry ∈ s.operators.toList
  process : processName (.text e.name) = .ok o.process
  config : o.config = .object [("script", .text script)]
  inPorts : o.inPorts = .list s.inPorts
  outPorts : o.outPorts = .list s.outPorts
  script : elementScript settings (.list s.statements) (.list s.inPorts) (.list s.values) = .ok script
  ports : s.inPorts = inPortsOf e ∧ s.outPorts = e.outputs.flatMap outPortsOf
  sends : Sends s

theorem draftElement_operator {settings : Settings} {options : GraphOptions} {i : Nat}
    (h : draftElement settings options i e.toValue s = .ok u s') : ∃ o script, DraftedAs settings e s' o script := by
  obtain ⟨schema, label, t1, t2, ms, hrun, hoperator, -, hjoin⟩ := draftElement_steps h
  obtain ⟨hgrows, -⟩ := draftParts_grows (N := False) False.elim False.elim hrun
  simp only [draftOperator, run_parts] at hoperator
  obtain ⟨script, hscript, o, ho, hadd⟩ := hoperator
  obtain ⟨operators, happend, rfl⟩ := addOperators_run hadd
  obtain ⟨graphs, rfl⟩ := joinGraphs_graphs hjoin
  have hconfig : o.config = .object [("script", .text script)] := by
    simp only [scriptOperator, operatorFor, bind_ok, pure_ok] at ho
    obtain ⟨_, ⟨_, -, rfl⟩, rfl⟩ := ho
    rfl
  obtain ⟨hprocess, hins, houts⟩ := scriptOperator_ok ho
  refine ⟨o, script, ?_, hprocess, hconfig, hins, houts, hscript, ⟨hgrows.inPorts, hgrows.outPorts⟩, hgrows.sends (List.forall_mem_nil _)⟩
  cases hops : t1.operators with
  | list ops =>
    rw [hops] at happend
    cases happend
    exact List.mem_append_right _ (List.mem_singleton.2 rfl)
  | _ => rw [hops] at happend; cases happend

theorem port_inj {v w : Value} (h : port v = port w) : v = w := by
  injection h with hfields
  injection hfields with hfirst
  exact (Prod.mk.inj hfirst).2

/-! ## Numbers behind names -/

def EndsIn (function name : String) : Prop := ∃ front, name.toList = front ++ '_' :: (plainLower function).toList

def portNamesOf (name : String) (links : Nat) : List String :=
  if links = 0 then [name] else (List.range (links + 1)).map fun i => name ++ toString i

theorem toList_toString (i : Nat) : (toString i).toList = Nat.toDigits 10 i := String.toList_ofList

theorem mem_portNamesOf {n p : String} {links : Nat} (h : p ∈ portNamesOf n links) :
    ∃ ds, p.toList = n.toList ++ ds ∧ '_' ∉ ds ∧ (ds = [] ↔ links = 0) := by
  unfold portNamesOf at h
  split at h
  · next hl =>
    rw [List.mem_singleton.1 h]
    exact ⟨[], by simp, List.not_mem_nil, by simp [hl]⟩
  · next hl =>
    obtain ⟨i, -, rfl⟩ := List.mem_map.1 h
    refine ⟨Nat.toDigits 10 i, by rw [String.toList_append, toList_toString], fun hmem => ?_, ?_⟩
    · have := Nat.isDigit_of_mem_toDigits (by decide) (by decide) hmem
      cases this
    · simp [hl, Nat.toDigits_ne_nil]

theorem portNames_eq {function n n' p : String} {links links' : Nat} (hn : EndsIn function n) (hn' : EndsIn function n')
    (h : p ∈ portNamesOf n links) (h' : p ∈ portNamesOf n' links') : n = n' ∧ (links = 0 ↔ links' = 0) := by
  obtain ⟨front, hfront⟩ := hn
  obtain ⟨front', hfront'⟩ := hn'
  obtain ⟨ds, hp, hds, hlinks⟩ := mem_portNamesOf h
  obtain ⟨ds', hp', hds', hlinks'⟩ := mem_portNamesOf h'
  have hfunction := underscore_not_mem_plainLower function
  -- read from the end, both stop at the last underscore
  have hstop : (ds.reverse ++ (plainLower function).toList.reverse) ++ '_' :: front.reverse =
      (ds'.reverse ++ (plainLower function).toList.reverse) ++ '_' :: front'.reverse := by
    have := congrArg List.reverse (hp.symm.trans hp')
    simpa [hfront, hfront'] using this
  obtain ⟨hends, hfronts⟩ := Text.append_stop_inj (by simp [hds, hfunction]) (by simp [hds', hfunction]) hstop
  have hsame : ds = ds' := by simpa using hends
  refine ⟨String.toList_inj.1 ?_, by rw [← hlinks, ← hlinks', hsame]⟩
  rw [hfront, hfront', List.reverse_inj.1 hfronts]

theorem nodup_portNamesOf (n : String) (links : Nat) : (portNamesOf n links).Nodup := by
  unfold portNamesOf
  split
  · simp
  · refine List.Nodup.map (fun i j h => ?_) List.nodup_range
    have hlists : n.toList ++ (toString i).toList = n.toList ++ (toString j).toList := by
      rw [← String.toList_append, ← String.toList_append]
      exact congrArg String.toList h
    have hdigits := congrArg (Nat.ofDigitChars 10 · 0) (List.append_cancel_left hlists)
    simpa [toList_toString, Nat.ofDigitChars_toDigits] using hdigits

/-! ## Outputs of a session -/

def linkCount : OutputItem → Nat
  | .table t => t.links.length
  | .var _ => 0

theorem outPortsOf_eq {o : OutputItem} {n : String} (hn : o.name = .text n) :
    outPortsOf o = (portNamesOf n (linkCount o)).map fun p => port (.text p) := by
  cases o with
  | var v =>
    have hname : v.name = .text n := hn
    simp [outPortsOf, portNamesOf, linkCount, hname]
  | table t =>
    have hname : t.name = .text n := hn
    cases hl : t.links with
    | nil => simp [outPortsOf, portNamesOf, linkCount, hl, hname]
    | cons k ks => simp [outPortsOf, portNamesOf, linkCount, hl, hname, Value.textOrEmpty, Value.text?, Function.comp_def]

def elementPorts (e : Element) : List String := e.outputs.flatMap fun o => portNamesOf o.name.textOrEmpty (linkCount o)

theorem outPorts_eq (h : ∀ o ∈ e.outputs, ∃ n, o.name = .text n) :
    e.outputs.flatMap outPortsOf = (elementPorts e).map fun p => port (.text p) := by
  rw [elementPorts, List.map_flatMap]
  refine List.flatMap_congr fun o ho => ?_
  obtain ⟨n, hn⟩ := h o ho
  rw [outPortsOf_eq hn, hn]
  rfl

theorem portNames_nodup {function : String} (h : ∀ o ∈ e.outputs, ∃ n, o.name = .text n ∧ EndsIn function n)
    (hnd : (e.outputs.map OutputItem.name).Nodup) : (elementPorts e).Nodup := by
  refine List.nodup_flatMap.2 ⟨fun o _ => nodup_portNamesOf _ _, ?_⟩
  refine (List.pairwise_map.1 hnd).imp_of_mem fun {o o'} ho ho' hne => ?_
  obtain ⟨n, hn, hends⟩ := h o ho
  obtain ⟨n', hn', hends'⟩ := h o' ho'
  intro p hp hp'
  simp only [hn, hn'] at hp hp'
  refine hne ?_
  rw [hn, hn', (portNames_eq hends hends' hp hp').1]

theorem port_mem_iff {function : String} {o : OutputItem} (h : ∀ o ∈ e.outputs, ∃ n, o.name = .text n ∧ EndsIn function n)
    (ho : o ∈ e.outputs) : port o.name ∈ (elementPorts e).map (fun n => port (.text n)) ↔
      ∃ o' ∈ e.outputs, o'.name = o.name ∧ linkCount o' = 0 := by
  obtain ⟨n, hn, hends⟩ := h o ho
  have hself : n ∈ portNamesOf n 0 := List.mem_singleton.2 rfl
  constructor
  · intro hmem
    obtain ⟨p, hp, hport⟩ := List.mem_map.1 hmem
    obtain rfl := Value.text.inj ((port_inj hport).trans hn)
    obtain ⟨o', ho', hp⟩ := List.mem_flatMap.1 hp
    obtain ⟨n', hn', hends'⟩ := h o' ho'
    rw [hn'] at hp
    obtain ⟨rfl, hlinks⟩ := portNames_eq hends' hends hp hself
    exact ⟨o', ho', hn'.trans hn.symm, hlinks.2 rfl⟩
  · rintro ⟨o', ho', hname, hlinks⟩
    refine List.mem_map.2 ⟨n, List.mem_flatMap.2 ⟨o', ho', ?_⟩, by rw [hn]⟩
    rw [hname, hn, hlinks]
    exact hself

end Graph

/-! ## Interface names of a session -/

variable {s : Session} {x : ProcedureName} {o o' : Value}

def OutputsEnd (x : ProcedureName) (o : Value) : Prop :=
  ∀ key ∈ ["output_tables", "output_vars"], ∀ t name, TableOf key o t → t.entry "name" = .ok name →
    ∃ n, t.entry "interface_name" = .ok (.text n) ∧ Graph.EndsIn x.2 n

theorem interfaceNameFor_endsIn {mark name n : String} {category : Option String}
    (h : interfaceNameFor mark category name (.text x.1) (.text x.2) = .ok n) : Graph.EndsIn x.2 n := by
  simp only [interfaceNameFor, plainValue_text, bind_ok, pure_ok, Except.ok.injEq, exists_eq_left'] at h
  refine ⟨mark.toList ++ (categoryMark category ++ (lowerText name).toList ++ '_' :: (plainLower (plainText x.1)).toList), ?_⟩
  rw [← h, toList_interfaceNameOf, plainLower_plainText x.2]
  simp

theorem extendVariable_interface {t u name : Value} (h : extendVariable (.text x.1) (.text x.2) t = .ok u)
    (hn : u.entry "name" = .ok name) : ∃ n, u.entry "interface_name" = .ok (.text n) ∧ Graph.EndsIn x.2 n := by
  obtain ⟨b, hb, h⟩ := bind_ok.1 h
  cases b with
  | false =>
    cases h
    rw [Value.has_of_entry hn] at hb
    cases hb
  | true =>
    simp only [if_not_true, bind_ok, pure_ok] at h
    obtain ⟨traced, htraced, category, -, n, hinterface, rfl⟩ := h
    obtain ⟨fs, rfl, -⟩ := Value.entry_ok.1 (textEntry_ok htraced)
    exact ⟨n, Value.entry_withEntries rfl, interfaceNameFor_endsIn hinterface⟩

theorem mem_extended {f all : Value → Outcome Value} {v w t : Value} {ts : List Value}
    (hall : ∀ {v w}, all v = .ok w → ∃ us ws, List.mapM f us = .ok ws ∧ w = .list ws) (h : extendedIf all v = .ok w)
    (hts : w.members = .ok ts) (ht : t ∈ ts) : ∃ u, f u = .ok t := by
  unfold extendedIf at h
  split at h
  · obtain ⟨us, ws, hws, rfl⟩ := hall h
    cases hts
    obtain ⟨u, -, hu⟩ := forall₂_mem_right (mapM_ok.1 hws) ht
    exact ⟨u, hu⟩
  · next hempty =>
    cases h
    rw [members_of_not_truthy (by simpa using hempty) hts] at ht
    cases ht

theorem holdsStored_outputsEnd (s : Session) : HoldsStored s OutputsEnd := by
  intro x settings p functions functions' metadata old o b hst hbuild hmetadata hput key hkey t name ht hname
  obtain ⟨ts, hts, ht⟩ := ht
  obtain ⟨-, -, htables, hvars⟩ := putInto_parts hput
  obtain ⟨-, -, -, -, htablesRun, hvarsRun, -⟩ := buildBase_ok.1 hbuild
  rcases List.mem_pair.1 hkey with rfl | rfl
  · rw [partsUnder_of_entry htables] at hts
    obtain ⟨u, hu⟩ := mem_extended (f := extendTable settings (.text x.1) (.text x.2) p.statements) (fun h => by
      simp only [extendTables, bind_ok, pure_ok] at h
      obtain ⟨us, -, ws, hws, rfl⟩ := h
      exact ⟨us, ws, hws, rfl⟩) htablesRun hts ht
    obtain ⟨n, hn⟩ := extendTable_named hu (extendTable_has hu hname)
    exact ⟨n.interface, hn.storedInterface, interfaceNameFor_endsIn hn.interface⟩
  · rw [partsUnder_of_entry hvars] at hts
    obtain ⟨u, hu⟩ := mem_extended (f := extendVariable (.text x.1) (.text x.2)) (fun h => by
      simp only [extendVariables, bind_ok, pure_ok] at h
      obtain ⟨us, -, ws, hws, rfl⟩ := h
      exact ⟨us, ws, hws, rfl⟩) hvarsRun hts ht
    exact extendVariable_interface hu hname

theorem OutputsEnd.sameBut (h : OutputsEnd x o) (hs : o.SameBut ["groups", mergedKey] o') : OutputsEnd x o' := by
  rintro key hkey t name ⟨ts, hts, ht⟩ hname
  rw [partsUnder, hs.entryOr (by rcases List.mem_pair.1 hkey with rfl | rfl <;> decide)] at hts
  exact h key hkey t name ⟨ts, hts, ht⟩ hname

def OutputsHaveNames (layers : Value) : Prop :=
  ∀ x ∈ procedureNames layers, ∀ o ∈ procedureAt? layers x, ∀ key ∈ ["output_tables", "output_vars"],
    ∀ ts ∈ (partsUnder key o).toOption, ∀ t ∈ ts, (t.entry "name").toOption.isSome

instance (layers : Value) : Decidable (OutputsHaveNames layers) := by
  unfold OutputsHaveNames
  infer_instance

theorem Built.outputs {layers : Value} {relations : List Relation} {e : Element} (h : Built layers relations e) :
    ∃ x c linkType, ContributedAs layers linkType x c ∧ e.outputs = c.outputs := by
  cases h with
  | alone hc hn => exact ⟨_, _, _, hc, rfl⟩
  | merged hp hc => exact ⟨_, _, _, hc, rfl⟩

theorem Processed.outputs_endIn {P : BaseParts → Prop} {s s' : Session} {grouped final : Value} {relations : List Relation}
    {elements : List Element} (hp : Processed P s s' grouped final relations elements)
    (hends : ∀ {x o}, procedureAt? final x = some o → OutputsEnd x o) (hnames : OutputsHaveNames final) {e : Element}
    (he : e ∈ elements) : ∃ function, ∀ o ∈ e.outputs, ∃ n, o.name = .text n ∧ Graph.EndsIn function n := by
  obtain ⟨x, c, linkType, ⟨l, o, hl, ho, hc⟩, houtputs⟩ := (hp.built e he).outputs
  obtain ⟨o1, ho1, hs1⟩ := hl.procedure' ho
  obtain ⟨o2, ho2, hs2⟩ := hp.procedure ho1
  obtain ⟨ts, us, tables, vars, hts, hus, htables, hvars, hall⟩ := hc.outputs
  have hparts : ∀ {key}, key ∈ ["output_tables", "output_vars"] → partsUnder key o2 = partsUnder key o := by
    intro key hkey
    have hother : key ∉ [mergedKey] := by rcases List.mem_pair.1 hkey with rfl | rfl <;> decide
    rw [partsUnder, partsUnder, hs2.entryOr hother, hs1.entryOr hother]
  have hname : ∀ {key t ts}, key ∈ ["output_tables", "output_vars"] → partsUnder key o = .ok ts → t ∈ ts →
      ∃ n, t.entry "interface_name" = .ok (.text n) ∧ Graph.EndsIn x.2 n := by
    intro key t ts hkey hts ht
    have htable : TableOf key o2 t := ⟨ts, (hparts hkey).trans hts, ht⟩
    have hx : x ∈ procedureNames final := (mem_procedureNames hp.base).2 ⟨o2, ho2⟩
    have htold := hnames x hx o2 ho2 key hkey ts (by rw [hparts hkey, hts]; rfl) t ht
    obtain ⟨name, hname⟩ := Option.isSome_iff_exists.1 htold
    exact hends ho2 key hkey t name htable (eq_ok_of_toOption hname)
  refine ⟨x.2, fun item hitem => ?_⟩
  rw [houtputs, hall] at hitem
  rcases List.mem_append.1 hitem with hitem | hitem
  · obtain ⟨w, hw, rfl⟩ := List.mem_map.1 hitem
    obtain ⟨t, ht, hfrom⟩ := forall₂_mem_right htables hw
    obtain ⟨n, hn, hend⟩ := hname (by simp) hts ht
    exact ⟨n, ok_unique hfrom.name hn, hend⟩
  · obtain ⟨w, hw, rfl⟩ := List.mem_map.1 hitem
    obtain ⟨t, ht, hfrom⟩ := forall₂_mem_right hvars hw
    obtain ⟨n, hn, hend⟩ := hname (by simp) hus ht
    exact ⟨n, ok_unique hfrom.name hn, hend⟩

/-! ## A result that another function reads -/

def servedSession : Session where
  settings := (Graph.linkedSession.settings.set Setting.sourceMapping (.object [])).set Setting.projectName (.text "p")
  trace := .object [("RandomForestClassifier", .object
    [("P", servedCall [tracedTable "#D" "SELECT * FROM \"S\".\"D\""] [tracedTable "#RESULT" "SELECT #RESULT"]),
     ("Q", servedCall [tracedTable "#E" "SELECT #RESULT"] [])])]
where
  servedCall (inputs outputs : List Value) : Value :=
    .object [("sql", .ofTexts ["DO"]), ("function", .list []), ("input_tables", .list inputs),
      ("output_tables", .list outputs), ("output_vars", .list [])]

def servedTest (s : Session) (layers v : Value) : Bool :=
  procedureNames layers == [("RandomForestClassifier", "P"), ("RandomForestClassifier", "Q")] && decide (OutputsHaveNames layers) &&
    (v.entry "function").toOption.bind Value.text? == some "P" &&
    (v.at? [.key "sql", .key "output"]).any fun w => w.toList.length == 1 && w.toList.all fun item =>
      (do s.settings.isKind (← item.entry "cat") .fitted : Outcome Bool).toOption == some true && (item.get "hasrel").isTruthy

def namelessSession : Session where
  settings := Graph.linkedSession.settings
  trace := .object [("RandomForestClassifier", .object
    [("P", .object [("sql", .ofTexts ["DO"]), ("function", .list []), ("output_tables", .list [tracedTable "#M" "SELECT #M"]),
      ("output_vars", .list [.object [("interface_name", .text "lt_m_randomforestclassifier_p0"), ("cat", .null),
        ("data_type", .text "INTEGER"), ("select", .text "SELECT 1")]])]),
     ("Q", servedSession.servedCall [tracedTable "#E" "SELECT #M"] [])])]

def namelessTest (v : Value) : Bool :=
  (v.at? [.key "sql", .key "output"]).any fun w =>
    w.toList.map (fun item => (item.textAt "interface_name", (item.listAt "relobject").length)) ==
      [("lt_m_randomforestclassifier_p", 1), ("lt_m_randomforestclassifier_p0", 0)]

/-- Runs a sample and tests the layers and the first element that come of it. -/
def firstElement (test : Session → Value → Value → Bool) (sample : Session) : Bool :=
  succeedsWith (fun _ s => (s.settings.entry Setting.layers).toOption.any fun layers =>
    (layers.listAt consumptionKey).head?.any (test s layers)) (processTrace true false true sample)

theorem firstElement_ok {test : Session → Value → Value → Bool} {sample : Session} (h : firstElement test sample = true) :
    ∃ s layers v, processTrace true false true sample = .ok () s ∧ s.settings.entry Setting.layers = .ok layers ∧
      (layers.listAt consumptionKey).head? = some v ∧ test s layers v = true := by
  obtain ⟨_, s, h, htest⟩ := exists_of_succeedsWith h
  obtain ⟨layers, hlayers, htest⟩ := (Option.any_eq_true _ _).1 htest
  obtain ⟨v, hv, htest⟩ := (Option.any_eq_true _ _).1 htest
  exact ⟨s, layers, v, h, eq_ok_of_toOption hlayers, hv, htest⟩

theorem samples_run : firstElement servedTest servedSession = true ∧ firstElement (fun _ _ => namelessTest) namelessSession = true := by
  decide +kernel

theorem head_element {layers v : Value} {es : List Element} (hv : (layers.listAt consumptionKey).head? = some v)
    (hes : layers.entry consumptionKey = .ok (.list (es.map Element.toValue))) : ∃ e ∈ es, v = e.toValue := by
  rw [Value.listAt, Value.get_of_entry hes] at hv
  obtain ⟨e, he, rfl⟩ := List.mem_map.1 (List.mem_of_head? hv)
  exact ⟨e, he, rfl⟩

/-- What the sample is processed to: the output of its first element is a result that is related. -/
structure ServedRun (s : Session) (layers : Value) (e : Element) (o : OutputItem) : Prop where
  procedures : procedureNames layers = [("RandomForestClassifier", "P"), ("RandomForestClassifier", "Q")]
  named : OutputsHaveNames layers
  function : (e.toValue.entry "function").toOption.bind Value.text? = some "P"
  outputs : e.outputs = [o]
  fitted : (do s.settings.isKind (← o.toValue.entry "cat") .fitted : Outcome Bool) = .ok true
  linked : Graph.linkCount o ≠ 0

theorem servedRun_of_test {s : Session} {layers : Value} {e : Element} (h : servedTest s layers e.toValue = true) :
    ∃ o, ServedRun s layers e o := by
  simp only [servedTest, Graph.at?_output, Option.any_some, Bool.and_eq_true, beq_iff_eq, decide_eq_true_eq, List.all_eq_true,
    Value.toList, List.length_map] at h
  obtain ⟨⟨⟨hnames, hnamed⟩, hfunction⟩, hlength, hall⟩ := h
  obtain ⟨o, ho⟩ := List.length_eq_one_iff.1 hlength
  obtain ⟨hfitted, hrelated⟩ := hall o.toValue (List.mem_map.2 ⟨o, by rw [ho]; exact .head _, rfl⟩)
  refine ⟨o, hnames, hnamed, hfunction, ho, eq_ok_of_toOption hfitted, ?_⟩
  cases o with
  | var w => cases hrelated
  | table t =>
    have hlinks : (!t.links.isEmpty) = true := hrelated
    simpa [Graph.linkCount] using hlinks

theorem Graph.output_ports {o : OutputItem} {n : String} {links : Nat} (hn : n ≠ "")
    (h : (o.toValue.textAt "interface_name", (o.toValue.listAt "relobject").length) = (n, links)) :
    o.name = .text n ∧ Graph.outPortsOf o = (Graph.portNamesOf n links).map fun p => Graph.port (.text p) := by
  obtain ⟨hname, hlinks⟩ := Prod.mk.inj h
  have htext : o.name.textOrEmpty = n := by cases o <;> exact hname
  have hcount : Graph.linkCount o = links := by
    cases o with
    | var w => exact hlinks
    | table t =>
      have hget : (OutputItem.table t).toValue.get "relobject" = if t.links.isEmpty then .null else .list (t.links.map Link.toValue) := rfl
      rw [← hlinks, Value.listAt, hget]
      cases hl : t.links <;> simp [Graph.linkCount, hl, Value.toList]
  have ho : o.name = .text n := by
    cases hv : o.name with
    | text m => rw [← htext, hv]; rfl
    | _ => rw [hv] at htext; exact absurd htext.symm hn
  exact ⟨ho, by rw [Graph.outPortsOf_eq ho, hcount]⟩

end TraceArtifacts
