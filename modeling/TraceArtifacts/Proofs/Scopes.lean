import TraceArtifacts.Proofs.Merging

/-!
# Proofs: table variables in merged elements

In a merged element the partition is called first, then the inputs of the reader are filled, and then the reader is called.
-/

namespace TraceArtifacts

variable {c : CallItem} {e : Element} {i : InputItem} {relations : List Relation} {x y : ProcedureName} {n v : String} {layers t : Value}

/-! ## What a call binds -/

def Text.pieces (s : List Char) : List (List Char) := (Text.cut ',' s).map (·.filter (· != ' '))

def argumentsOf (sql : String) : List (List Char) := Text.pieces (sql.toList.drop 8).dropLast.dropLast

def IsPlain (n : String) : Prop := ',' ∉ n.toList ∧ ' ' ∉ n.toList

instance (n : String) : Decidable (IsPlain n) := inferInstanceAs (Decidable (_ ∧ _))

theorem Text.pieces_blank (s : List Char) : pieces (' ' :: s) = pieces s := by
  obtain ⟨p, ps, hp⟩ := List.exists_cons_of_ne_nil (cut_ne_nil ',' s)
  simp [pieces, cut, hp]

theorem Text.pieces_of_not_mem {s : List Char} (h : ',' ∉ s) : pieces s = [s.filter (· != ' ')] := by
  rw [pieces, cut_eq_singleton_iff.2 ⟨h, rfl⟩, List.map_singleton]

theorem Text.pieces_intercalate (a : String) (as : List String) :
    pieces (String.intercalate ", " (a :: as)).toList = (a :: as).flatMap fun b => pieces b.toList := by
  induction as generalizing a with
  | nil => simp
  | cons b bs ih =>
    have hcat : (String.intercalate ", " (a :: b :: bs)).toList = a.toList ++ ',' :: ' ' :: (String.intercalate ", " (b :: bs)).toList := by
      simp [String.toList_intercalate]
    have hcut : ∀ s t : List Char, pieces (s ++ ',' :: t) = pieces s ++ pieces t := by
      intro s t
      simp only [pieces, cut_append, List.map_append]
    rw [hcat, hcut, pieces_blank, ih]
    rfl

theorem argumentsOf_callTemplate (ins outs : List String) : argumentsOf (callTemplate ins outs) =
      Text.pieces (String.intercalate ", " (callArguments ins outs)).toList := by
  have htext : (callTemplate ins outs).toList = "CALL \x7b\x7d(".toList ++
      (String.intercalate ", " (callArguments ins outs)).toList ++ [')', ';'] := by
    simp [callTemplate]
  rw [argumentsOf, htext]
  simp

theorem IsPlain.filter (h : IsPlain n) : n.toList.filter (· != ' ') = n.toList := by
  refine List.filter_eq_self.2 fun c hc => bne_iff_ne.2 ?_
  rintro rfl
  exact h.2 hc

theorem pieces_bound (h : IsPlain n) : Text.pieces (n ++ " => " ++ n).toList = [n.toList ++ '=' :: '>' :: n.toList] := by
  rw [Text.pieces_of_not_mem (by simp [h.1])]
  simp [h.filter]

theorem pieces_passed (h : IsPlain n) : Text.pieces (n ++ " => :" ++ n).toList = [n.toList ++ '=' :: '>' :: ':' :: n.toList] := by
  rw [Text.pieces_of_not_mem (by simp [h.1])]
  simp [h.filter]

def CallItem.Binds (c : CallItem) (v : String) : Prop :=
  ∃ ins outs, c.sql = callTemplate ins outs ∧ v ∈ outs

theorem CallItem.Binds.argument (h : c.Binds v) (hv : IsPlain v) : v.toList ++ '=' :: '>' :: v.toList ∈ argumentsOf c.sql := by
  obtain ⟨ins, outs, hsql, hmem⟩ := h
  have harg : v ++ " => " ++ v ∈ callArguments ins outs := List.mem_append_right _ (List.mem_map.2 ⟨v, hmem, rfl⟩)
  obtain ⟨a, as, has⟩ := List.exists_cons_of_ne_nil (List.ne_nil_of_mem harg)
  rw [hsql, argumentsOf_callTemplate, has, Text.pieces_intercalate, ← has]
  refine List.mem_flatMap.2 ⟨_, harg, ?_⟩
  rw [pieces_bound hv]
  exact List.mem_singleton_self _

theorem mem_outputs_of_argument {ins outs : List String} (hplain : ∀ n ∈ ins ++ outs, IsPlain n)
    (h : v.toList ++ '=' :: '>' :: v.toList ∈ argumentsOf (callTemplate ins outs)) : v ∈ outs := by
  rw [argumentsOf_callTemplate] at h
  cases hargs : callArguments ins outs with
  | nil =>
    rw [hargs] at h
    simp [Text.pieces, Text.cut] at h
  | cons a as =>
    rw [hargs, Text.pieces_intercalate, ← hargs] at h
    obtain ⟨arg, harg, h⟩ := List.mem_flatMap.1 h
    rcases List.mem_append.1 harg with hin | hout
    · obtain ⟨n, hn, rfl⟩ := List.mem_map.1 hin
      rw [pieces_passed (hplain n (List.mem_append_left _ hn)), List.mem_singleton] at h
      -- one text has an even number of characters, the other an odd one
      have hlen := congrArg List.length h
      simp only [List.length_append, List.length_cons] at hlen
      omega
    · obtain ⟨n, hn, rfl⟩ := List.mem_map.1 hout
      rw [pieces_bound (hplain n (List.mem_append_right _ hn)), List.mem_singleton] at h
      have hlen := congrArg List.length h
      simp only [List.length_append, List.length_cons] at hlen
      have hsame := (List.append_inj h (by omega)).1
      rwa [String.toList_inj.1 hsame]

/-! ## What an input reads -/

def InputItem.Reads (i : InputItem) (v : String) : Prop :=
  i.toValue.entry "sql_vars" = .ok (.list [.text (":" ++ v)])

theorem InputItem.reads_iff : i.Reads v ↔ i.source = .text (":" ++ v) := by
  have hvars : i.toValue.entry "sql_vars" = .ok (.list [i.source]) := rfl
  rw [Reads, hvars]
  simp

theorem linkTarget_passed {k : Link} {v : Value} (h : linkTarget (.text passedLink) k = .ok v) :
    ∃ n, k.interfaceName = .text n ∧ v = .text (":" ++ n) := by
  have hitem : k.toValue.item (.text passedLink) = .ok k.interfaceName := by
    obtain ⟨path, groups, direction, name, elementName, interfaceName, dbObjectName⟩ := k
    cases elementName <;> rfl
  have hkind : (Value.text passedLink).same (.text passedLink) = true := rfl
  simp only [linkTarget, hitem, hkind, if_true, bind_ok, pure_ok, Except.ok.injEq, exists_eq_left'] at h
  obtain ⟨n, hn, rfl⟩ := h
  exact ⟨n, asText_ok.1 hn, rfl⟩

theorem colon_ne_dataset {schema table : String} : ":" ++ v ≠ "\"" ++ schema ++ "\".\"" ++ table ++ "\"" := by
  intro h
  have hhead := congrArg (fun s : String => s.toList.head?) h
  simp at hhead

def Relation.Passes (r : Relation) (v : String) : Prop :=
  r.fromTable.entry "interface_name" = .ok (.text v)

theorem InputFrom.reads_iff (h : InputFrom layers (.text passedLink) y t i) (hrel : HasRelations layers relations) :
    i.Reads v ↔ ∃ r, relations.find? (Relation.isAtTable .incoming y (.text i.name)) = some r ∧ r.Passes v := by
  rw [InputItem.reads_iff]
  have hfirst := h.first hrel
  cases hfind : relations.find? (Relation.isAtTable .incoming y (.text i.name)) with
  | none =>
    rw [hfind] at hfirst
    obtain ⟨_, schema, table, -, -, hsource⟩ := h.dataset hfirst
    constructor
    · intro hread
      rw [hsource] at hread
      exact absurd (Value.text.inj hread).symm colon_ne_dataset
    · rintro ⟨r, hr, -⟩
      cases hr
  | some r =>
    rw [hfind] at hfirst
    obtain ⟨k, -, hfollows, htarget⟩ := hfirst
    obtain ⟨n, hn, hsource⟩ := linkTarget_passed htarget
    have hpass : r.Passes n := hfollows.interfaceName.trans (congrArg Except.ok hn)
    rw [hsource]
    constructor
    · intro hread
      have hname : ":" ++ n = ":" ++ v := Value.text.inj hread
      obtain rfl : n = v := by simpa using hname
      exact ⟨r, rfl, hpass⟩
    · rintro ⟨r', hr', hpass'⟩
      cases hr'
      obtain rfl := Value.text.inj (ok_unique hpass hpass')
      rfl

theorem InputFrom.slashFree {linkType : Value} (h : InputFrom layers linkType y t i) (hrel : HasRelations layers relations) {r : Relation}
    (hr : relations.find? (Relation.isAtTable .incoming y (.text i.name)) = some r) (hx : r.fromPath = procedurePath x) :
    SlashFree x := by
  have hfirst := h.first hrel
  rw [hr] at hfirst
  obtain ⟨k, -, hfollows, -⟩ := hfirst
  have hgroups := hfollows.groups
  rw [show r.farPath .incoming = procedurePath x from hx] at hgroups
  obtain ⟨o, ho, -⟩ := bind_ok.1 hgroups
  exact (atPath_procedurePath.1 ho).1

/-! ## Scopes -/

def Element.InScope (e : Element) : Prop :=
  ∀ before i after v, e.body = before ++ .input i :: after → i.Reads v → ∃ c, .call c ∈ before ∧ c.Binds v

def BodyItem.reads (v : String) : BodyItem → Bool
  | .input i => i.source.same (.text (":" ++ v))
  | .call _ => false

def BodyItem.binds (v : String) : BodyItem → Bool
  | .call c => (argumentsOf c.sql).contains (v.toList ++ '=' :: '>' :: v.toList)
  | .input _ => false

theorem Element.exists_reads (h : e.body.any (·.reads v) = true) : ∃ i, .input i ∈ e.body ∧ i.Reads v := by
  obtain ⟨item, hitem, hsource⟩ := List.any_eq_true.1 h
  cases item with
  | input i => exact ⟨i, hitem, InputItem.reads_iff.2 (same_text_iff.1 hsource)⟩
  | call c => cases hsource

theorem Element.not_inScope (hv : IsPlain v) (hreads : e.body.any (·.reads v) = true) (hbinds : e.body.any (·.binds v) = false) :
    ¬e.InScope := by
  intro hscope
  obtain ⟨i, hi, hread⟩ := e.exists_reads hreads
  obtain ⟨before, after, hsplit⟩ := List.append_of_mem hi
  obtain ⟨c, hc, hbound⟩ := hscope before i after v hsplit hread
  have hmem : .call c ∈ e.body := hsplit ▸ List.mem_append_left _ hc
  have harg : BodyItem.binds v (.call c) = true := List.contains_iff_mem.2 (hbound.argument hv)
  exact List.any_eq_false.1 hbinds _ hmem harg

def WritesAs (layers : Value) (x : ProcedureName) (v : String) : Prop :=
  ∃ o t, procedureAt? layers x = some o ∧ (TableOf "output_tables" o t ∨ TableOf "output_vars" o t) ∧
    t.entry "interface_name" = .ok (.text v)

def PlainInterfaces (layers : Value) : Prop :=
  ∀ {x o k t n}, procedureAt? layers x = some o → k ∈ ["input_tables", "output_tables", "output_vars"] →
    TableOf k o t → t.entry "interface_name" = .ok (.text n) → IsPlain n

theorem CallOf.binds (h : CallOf layers x c) (hw : WritesAs layers x v) : c.Binds v := by
  obtain ⟨o, ts, us, vs, ins, outs, ho, -, -, hus, hvs, -, houts, hsql⟩ := h
  obtain ⟨o', t, ho', ht, hv⟩ := hw
  obtain rfl := Option.mem_unique ho ho'
  have hmem : t ∈ us ++ vs := by
    rcases ht with ⟨us', hus', ht⟩ | ⟨vs', hvs', ht⟩
    · obtain rfl := ok_unique hus hus'
      exact List.mem_append_left _ ht
    · obtain rfl := ok_unique hvs hvs'
      exact List.mem_append_right _ ht
  obtain ⟨n, hn, htn⟩ := forall₂_mem_left houts hmem
  obtain rfl := Value.text.inj (ok_unique hv htn)
  exact ⟨ins, outs, hsql, hn⟩

theorem CallOf.writesAs (h : CallOf layers x c) (hplain : PlainInterfaces layers) (hv : IsPlain v) (hb : c.Binds v) :
    WritesAs layers x v := by
  obtain ⟨o, ts, us, vs, ins, outs, ho, -, hts, hus, hvs, hins, houts, hsql⟩ := h
  have hall : ∀ n ∈ ins ++ outs, IsPlain n := by
    intro n hn
    rcases List.mem_append.1 hn with hn | hn
    · obtain ⟨t, ht, htn⟩ := forall₂_mem_right hins hn
      exact hplain ho (by simp) ⟨ts, hts, ht⟩ htn
    · obtain ⟨t, ht, htn⟩ := forall₂_mem_right houts hn
      rcases List.mem_append.1 ht with ht | ht
      · exact hplain ho (by simp) ⟨us, hus, ht⟩ htn
      · exact hplain ho (by simp) ⟨vs, hvs, ht⟩ htn
  have harg := hb.argument hv
  rw [hsql] at harg
  obtain ⟨t, ht, htn⟩ := forall₂_mem_right houts (mem_outputs_of_argument hall harg)
  refine ⟨o, t, ho, ?_, htn⟩
  rcases List.mem_append.1 ht with ht | ht
  · exact .inl ⟨us, hus, ht⟩
  · exact .inr ⟨vs, hvs, ht⟩

section Body

variable {p q : CallItem} {inputs : List InputItem} (hbody : e.body = .call p :: inputs.map .input ++ [.call q])
include hbody

theorem input_mem_body : .input i ∈ e.body ↔ i ∈ inputs := by
  simp [hbody]

theorem inScope_iff : e.InScope ↔ ∀ i ∈ inputs, ∀ v, i.Reads v → p.Binds v := by
  constructor
  · intro hscope i hi v hv
    obtain ⟨is, js, rfl⟩ := List.append_of_mem hi
    have hsplit : e.body = (.call p :: is.map .input) ++ .input i :: (js.map .input ++ [.call q]) := by
      simp [hbody]
    obtain ⟨c, hc, hbinds⟩ := hscope _ i _ v hsplit hv
    obtain rfl : c = p := by simpa using hc
    exact hbinds
  · intro hall before i after v hsplit hv
    have hi : i ∈ inputs := (input_mem_body hbody).1 (by rw [hsplit]; simp)
    refine ⟨p, ?_, hall i hi v hv⟩
    cases before with
    | nil =>
      rw [hbody] at hsplit
      simp at hsplit
    | cons b before =>
      rw [hbody] at hsplit
      obtain rfl : .call p = b := (List.cons.inj hsplit).1
      exact List.mem_cons_self ..

end Body

/-- The element of a partition `x` and a procedure `y` that reads it. -/
structure Scoped (layers : Value) (relations : List Relation) (x y : ProcedureName) (e : Element) :
    Prop where
  joined : ∃ r ∈ relations, r.fromPath = procedurePath x ∧ r.toPath = procedurePath y
  body : ∃ p q inputs o ts, e.body = .call p :: inputs.map .input ++ [.call q] ∧ CallOf layers x p ∧
    CallOf layers y q ∧ procedureAt? layers y = some o ∧ partsUnder "input_tables" o = .ok ts ∧
    List.Forall₂ (fun t (i : InputItem) => t.entry "interface_name" = .ok (.text i.name)) ts inputs
  reads : ∀ i, .input i ∈ e.body → ∀ v, i.Reads v ↔
    ∃ r, relations.find? (Relation.isAtTable .incoming y (.text i.name)) = some r ∧ r.Passes v
  own : (∀ i, .input i ∈ e.body → ∀ r, relations.find? (Relation.isAtTable .incoming y (.text i.name)) = some r →
      r.fromPath = procedurePath x) → e.InScope
  exact : PlainInterfaces layers → (e.InScope ↔ ∀ i, .input i ∈ e.body → ∀ v, i.Reads v → WritesAs layers x v)

/-- A merged element of a base layer that is as `layers`, but for groups and marks. -/
theorem Built.scoped {grouped l : Value} (h : Built grouped relations e) (hsingle : e.single = false) (hb : IsBaseLayer layers)
    (hbase : l.at? [.key baseKey] = layers.at? [.key baseKey]) (halike : Alike ["groups"] l grouped)
    (hrel : buildRelations layers = .ok relations) (hhas : HasRelations grouped relations) : ∃ x y, Scoped layers relations x y e := by
  cases h with
  | alone => cases hsingle
  | @merged x y n m groups p c r hp hc hn hm hpart hr hfrom hto =>
    obtain ⟨lp, op, hlp, hop, hp⟩ := hp
    obtain ⟨lc, oc, hlc, hoc, hc⟩ := hc
    have hall : ∀ {l'}, Alike [mergedKey] grouped l' → Alike ["groups", mergedKey] l l' :=
      fun hl' => (halike.mono (by simp)).trans (hl'.mono (by simp))
    have hcall : ∀ {z l' o linkType d}, Alike [mergedKey] grouped l' → procedureAt? l' z = some o →
        Contributes l' linkType z o d → CallOf layers z d.call := by
      intro z l' o linkType d hl' ho hd
      obtain ⟨o', hrest⟩ := hd.callOf (hall hl') ho (by decide)
      rw [procedureAt?_congr hbase] at hrest
      exact ⟨o', hrest⟩
    have hcallp := hcall hlp hop hp
    obtain ⟨ts, hts, hinputs⟩ := hc.inputs
    have hbody : (mergedOf x n m groups p c).body = .call p.call :: c.inputs.map .input ++ [.call c.call] := rfl
    have hhas' := hlc.relations.trans hhas
    have hreads : ∀ i ∈ c.inputs, ∀ v, i.Reads v ↔
        ∃ r, relations.find? (Relation.isAtTable .incoming y (.text i.name)) = some r ∧ r.Passes v := by
      intro i hi v
      obtain ⟨t, -, ht⟩ := forall₂_mem_right hinputs hi
      exact ht.reads_iff hhas'
    have hscope := inScope_iff hbody
    refine ⟨x, y, ⟨⟨r, hr, hfrom, hto⟩, ?_, fun i hi => hreads i ((input_mem_body hbody).1 hi),
      fun hown => hscope.2 fun i hi v hv => ?_, fun hplain => ?_⟩⟩
    -- body
    · obtain ⟨o, ho, hs⟩ := (hall hlc).procedure' hoc
      rw [procedureAt?_congr hbase] at ho
      rw [hs.partsUnder (by decide)] at hts
      exact ⟨p.call, c.call, c.inputs, o, ts, hbody, hcallp, hcall hlc hoc hc, ho, hts, hinputs.imp fun t i hi => hi.name⟩
    -- own
    · obtain ⟨r', hr', hpass⟩ := (hreads i hi v).1 hv
      obtain ⟨t, -, ht⟩ := forall₂_mem_right hinputs hi
      obtain ⟨x', y', hj⟩ := buildRelations_grounded hb hrel (List.mem_of_find?_eq_some hr')
      have hpath := hown i ((input_mem_body hbody).2 hi) r' hr'
      obtain rfl : x' = x := procedurePath_injective (ht.slashFree hhas' hr' hj.fromPath) (hj.fromPath.symm.trans hpath)
      obtain ⟨o, ho, -, htable⟩ := hj.writer
      exact hcallp.binds ⟨o, r'.fromTable, ho, .inl htable, hpass⟩
    -- exact
    · rw [hscope]
      constructor
      · intro hall i hi v hv
        have hi := (input_mem_body hbody).1 hi
        obtain ⟨r', hr', hpass⟩ := (hreads i hi v).1 hv
        obtain ⟨x', y', hj⟩ := buildRelations_grounded hb hrel (List.mem_of_find?_eq_some hr')
        obtain ⟨o, ho, -, htable⟩ := hj.writer
        exact hcallp.writesAs hplain (hplain ho (by simp) htable hpass) (hall i hi v hv)
      · intro hall i hi v hv
        exact hcallp.binds (hall i ((input_mem_body hbody).2 hi) v hv)

/-- What the inputs in the middle of merged elements read, and when that is in scope. -/
theorem relateAndBuild_scoped {s s' : Session} {layers : Value} {elements : List Element}
    (h : relateAndBuild s = .ok elements s') (hl : s.settings.entry Setting.layers = .ok layers)
    (hf : FreshBase layers) :
    ∃ relations, buildRelations layers = .ok relations ∧ ∀ e ∈ elements, e.single = false → ∃ x y, Scoped layers relations x y e := by
  obtain ⟨relations, l, g, grouped, st, b, hrel, hbase, -, -, halike, hhas, -, hb, -⟩ := relateAndBuild_grouped h hl hf
  have hfg := (hf.congr hbase).alike halike
  obtain ⟨-, hbuilt⟩ := buildConsumption_built hb hfg.base hfg.records hhas (buildRelations_paired hf.base hrel)
  exact ⟨relations, hrel, fun e he hsingle =>
    (hbuilt e he).scoped hsingle hf.base hbase halike hrel hhas⟩

/-- Both inputs of the procedure that fits read what the partition binds. -/
theorem relateAndBuild_scoped_sample : ∃ elements s', relateAndBuild (mergingSession partitionedLayers) = .ok elements s' ∧
      ∃ e ∈ elements, e.single = false ∧ (∃ i, .input i ∈ e.body ∧ i.Reads "parts") ∧ e.InScope := by
  have hrun : succeedsWith (fun elements _ => elements.any fun e => !e.single && e.body.any (·.reads "parts"))
      (relateAndBuild (mergingSession partitionedLayers)) = true := by decide +kernel
  obtain ⟨elements, s', h, hany⟩ := exists_of_succeedsWith hrun
  obtain ⟨e, he, hmerged⟩ := List.any_eq_true.1 hany
  obtain ⟨hsingle, hread⟩ := Bool.and_eq_true_iff.1 hmerged
  have hsingle : e.single = false := by simpa using hsingle
  obtain ⟨relations, hrel, hall⟩ := relateAndBuild_scoped h rfl partitionedLayers_fresh
  obtain ⟨x, y, hscoped⟩ := hall e he hsingle
  -- all relations come from the partition
  have hfrom : ((buildRelations partitionedLayers).toOption.getD []).all (fun r =>
      r.fromPath == procedurePath ("Split", "Partition")) = true := by decide +kernel
  rw [hrel] at hfrom
  have hfrom : ∀ r ∈ relations, r.fromPath = procedurePath ("Split", "Partition") :=
    fun r hr => beq_iff_eq.1 (List.all_eq_true.1 hfrom r hr)
  obtain ⟨r, hr, hx, -⟩ := hscoped.joined
  refine ⟨elements, s', h, e, he, hsingle, e.exists_reads hread, hscoped.own fun i _ r' hr' => ?_⟩
  rw [hfrom r' (List.mem_of_find?_eq_some hr'), ← hfrom r hr, hx]

def scoringLayers : Value :=
  .object [(baseKey, .object [("Split", .object
      [("Partition", sampleProcedure "partition" [sampleTable "data" "FROM S.D"] [sampleTable "parts" "#P"])]),
    ("Forest", .object [("Fit", sampleProcedure "fit" [sampleTable "train" "FROM S.F"] [sampleTable "model" "#M"]),
       ("Predict", sampleProcedure "predict" [sampleTable "new" "FROM #P", sampleTable "fitted" "FROM #M"] [sampleTable "result" "#R"])])])]

/-- A variable can be read that nothing binds: the model is kept in a table by another element, and the merged one reads it as
if it had been passed on. -/
theorem relateAndBuild_reads_unbound : ∃ elements s', relateAndBuild (mergingSession scoringLayers) = .ok elements s' ∧
      ∃ e ∈ elements, e.single = false ∧ (∃ i, .input i ∈ e.body ∧ i.Reads "model") ∧ ¬e.InScope := by
  have hrun : succeedsWith (fun elements _ => elements.any fun e => !e.single &&
      (e.body.any (·.reads "model") && !e.body.any (·.binds "model")))
      (relateAndBuild (mergingSession scoringLayers)) = true := by decide +kernel
  obtain ⟨elements, s', h, hany⟩ := exists_of_succeedsWith hrun
  obtain ⟨e, he, hmerged⟩ := List.any_eq_true.1 hany
  simp only [Bool.and_eq_true, Bool.not_eq_true'] at hmerged
  obtain ⟨hsingle, hreads, hbinds⟩ := hmerged
  exact ⟨elements, s', h, e, he, hsingle, e.exists_reads hreads, e.not_inScope (by decide) hreads hbinds⟩

end TraceArtifacts
