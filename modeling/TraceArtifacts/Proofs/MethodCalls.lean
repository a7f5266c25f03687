import TraceArtifacts.Proofs.Carrying
import TraceArtifacts.Proofs.ElementKeys

/-!
# Proofs: the call in a method

The call of an element goes into its method after four replacements, one after the other.
-/

namespace TraceArtifacts

namespace Text

variable {c : Char} {old new r s u w : List Char}

/-! ## Replacements -/

theorem replaceFrom_skip (old : List Char) : replaceFrom old new u.length (u ++ r) = replaceFrom old new 0 r := by
  induction u with
  | nil => rfl
  | cons d u ih => exact ih

theorem replace_miss (h : ¬ old <+: c :: r) : replace old new (c :: r) = c :: replace old new r := by
  rw [replace, replaceFrom, if_neg (mt List.isPrefixOf_iff_prefix.1 h)]
  rfl

theorem replace_skip (hc : c ∉ u) (r : List Char) : replace (c :: w) new (u ++ r) = u ++ replace (c :: w) new r := by
  induction u with
  | nil => rfl
  | cons d u ih =>
    obtain ⟨hd, hu⟩ := List.ne_and_not_mem_of_not_mem_cons hc
    rw [List.cons_append, replace_miss (fun h => hd (List.cons_prefix_cons.1 h).1), ih hu]
    rfl

theorem replace_hit (r : List Char) : replace (c :: w) new (c :: w ++ r) = new ++ replace (c :: w) new r := by
  have hstands : (c :: w).isPrefixOf (c :: (w ++ r)) = true := List.isPrefixOf_iff_prefix.2 (List.prefix_append (c :: w) r)
  rw [List.cons_append, replace, replaceFrom, if_pos hstands]
  exact congrArg (new ++ ·) (replaceFrom_skip (c :: w))

theorem replace_none (h : ¬ old <:+: s) : replace old new s = s := by
  induction s with
  | nil => rfl
  | cons d s ih =>
    rw [List.infix_cons_iff, not_or] at h
    rw [replace_miss h.1, ih h.2]

theorem replace_once (hu : c ∉ u) (hr : c ∉ r) : replace (c :: w) new (u ++ (c :: w ++ r)) = u ++ (new ++ r) := by
  rw [replace_skip hu, replace_hit, replace_none fun hin => hr (hin.subset (.head _))]

end Text

open Text

/-! ## Calls -/

variable {d data o proc : String} {outs : List String} {result : String → String}

def callOf (proc d data : String) (result : String → String) (outs : List String) : String :=
  "CALL " ++ proc ++ "(" ++ String.intercalate ", " ((d ++ " => " ++ data) :: outs.map fun n => n ++ " => " ++ result n) ++ ");"

def outputsText (result : String → String) (outs : List String) : List Char :=
  outs.flatMap (fun n => ", ".toList ++ n.toList ++ " =".toList ++ '>' :: ' ' :: (result n).toList) ++ ");".toList

theorem toList_callOf : (callOf proc d data result outs).toList =
    "CALL ".toList ++ (proc.toList ++ "(".toList ++ d.toList ++ " =".toList) ++ '>' :: ' ' :: (data.toList ++ outputsText result outs) := by
  have hrest : ∀ a : String, (String.intercalate ", " (a :: outs.map fun n => n ++ " => " ++ result n)).toList ++ ");".toList =
      a.toList ++ outputsText result outs := by
    induction outs with
    | nil => simp [outputsText]
    | cons n outs ih =>
      intro a
      have hcat : (String.intercalate ", " (a :: (n :: outs).map fun n => n ++ " => " ++ result n)).toList = a.toList ++ ", ".toList ++
            (String.intercalate ", " ((n ++ " => " ++ result n) :: outs.map fun n => n ++ " => " ++ result n)).toList := by
        simp [String.toList_intercalate]
      rw [hcat, List.append_assoc, ih]
      simp [outputsText]
  simp only [callOf, String.toList_append, List.append_assoc, hrest]
  simp

theorem not_mem_outputsText {c : Char} (hc : c ∉ [',', ' ', '=', '>', ')', ';']) (h : ∀ n ∈ outs, c ∉ n.toList ∧ c ∉ (result n).toList) :
    c ∉ outputsText result outs := by
  simp only [List.mem_cons, List.not_mem_nil, or_false, not_or] at hc
  intro hmem
  rcases List.mem_append.1 hmem with hmem | hmem
  · obtain ⟨n, hn, hmem⟩ := List.mem_flatMap.1 hmem
    simp [h n hn, hc] at hmem
  · simp [hc] at hmem

theorem statementText_call (hplain : ∀ n ∈ d :: outs, '\x7b' ∉ n.toList ∧ '\x7d' ∉ n.toList) :
    statementText (CallItem.toValue ⟨.text proc, callTemplate [d] outs⟩) = .ok (callOf proc d (":" ++ d) id outs) := by
  obtain ⟨b, hb⟩ : ∃ b, b = "(" ++ String.intercalate ", " ((d ++ " => " ++ (":" ++ d)) :: outs.map fun n => n ++ " => " ++ id n) ++ ");" :=
    ⟨_, rfl⟩
  have hcall : ∀ proc, callOf proc d (":" ++ d) id outs = "CALL " ++ proc ++ b := by
    intro proc
    simp only [callOf, hb, String.append_assoc]
  have hfirst : d ++ " => :" ++ d = d ++ " => " ++ (":" ++ d) := String.toList_inj.1 (by simp)
  have htemplate : callTemplate [d] outs = "CALL " ++ "\x7b\x7d" ++ b := by
    have hargs : callArguments [d] outs = (d ++ " => :" ++ d) :: outs.map fun n => n ++ " => " ++ id n := rfl
    rw [callTemplate, hargs, hfirst, hb]
    apply String.toList_inj.1
    simp
  have hbraces : '\x7b' ∉ b.toList ∧ '\x7d' ∉ b.toList := by
    have htext : b.toList = "(".toList ++ d.toList ++ " =".toList ++ '>' :: ' ' :: ((":" ++ d).toList ++ outputsText id outs) := by
      have htext : (callOf "" d (":" ++ d) id outs).toList = _ := toList_callOf
      rw [hcall] at htext
      simpa using htext
    have houts := fun n hn => hplain n (.tail d hn)
    rw [htext]
    constructor
    · have hrest : '\x7b' ∉ outputsText id outs := not_mem_outputsText (by decide) fun n hn => ⟨(houts n hn).1, (houts n hn).1⟩
      simp [(hplain d (.head _)).1, hrest]
    · have hrest : '\x7d' ∉ outputsText id outs := not_mem_outputsText (by decide) fun n hn => ⟨(houts n hn).2, (houts n hn).2⟩
      simp [(hplain d (.head _)).2, hrest]
  rw [hcall]
  show fillWith (.text (callTemplate [d] outs)) (.ok (.list [.text proc])) = _
  rw [htemplate]
  refine fillWith_single (fun s hs => ?_) _
  simp only [List.mem_cons, List.not_mem_nil, or_false] at hs
  rcases hs with rfl | rfl
  · decide
  · exact hbraces

/-- The names of a call can be told apart in its text, and the first word stands at its start only. -/
structure Legible (schema algo proc d o : String) (outs : List String) : Prop where
  marks : ∀ n ∈ schema :: algo :: proc :: d :: o :: outs, ':' ∉ n.toList ∧ '>' ∉ n.toList
  fields : ∀ n ∈ d :: outs, '\x7b' ∉ n.toList ∧ '\x7d' ∉ n.toList
  apart : ∀ n ∈ outs, n ≠ o → ¬ o.toList <:+: n.toList
  named : o ≠ "" ∧ ',' ∉ o.toList ∧ ')' ∉ o.toList
  once : ¬ "CALL ".toList <:+: (callOf proc d (":" ++ d) id outs).toList.drop 5

variable {algo schema : String} {p : Managed.Purpose}

theorem replace_outputsText (hmarks : ∀ n ∈ outs, '>' ∉ n.toList) (hapart : ∀ n ∈ outs, n ≠ o → ¬ o.toList <:+: n.toList)
    (hnamed : ',' ∉ o.toList ∧ ')' ∉ o.toList) (new : String) :
    replace ('>' :: ' ' :: o.toList) ('>' :: ' ' :: new.toList) (outputsText id outs) =
      outputsText (fun n => if n = o then new else n) outs := by
  induction outs with
  | nil => exact replace_none fun hin => by simpa [outputsText] using hin.subset (.head _)
  | cons n outs ih =>
    have hrest := ih (fun m hm => hmarks m (.tail _ hm)) (fun m hm => hapart m (.tail _ hm))
    have hcons : ∀ f : String → String, outputsText f (n :: outs) =
        (", ".toList ++ n.toList ++ " =".toList) ++ ('>' :: ' ' :: (f n).toList ++ outputsText f outs) := by
      intro f
      simp [outputsText]
    have hn : '>' ∉ ", ".toList ++ n.toList ++ " =".toList := by simp [hmarks n (.head _)]
    rw [hcons, hcons, replace_skip hn]
    by_cases heq : n = o
    · rw [if_pos heq, id, heq]
      exact congrArg _ ((replace_hit _).trans (congrArg _ hrest))
    · obtain ⟨x, r, hx, hr⟩ : ∃ x r, x ∉ o.toList ∧ outputsText id outs = x :: r := by
        cases outs with
        | nil => exact ⟨')', _, hnamed.2, rfl⟩
        | cons m outs => exact ⟨',', _, hnamed.1, rfl⟩
      have hmiss : ¬ '>' :: ' ' :: o.toList <+: '>' :: ' ' :: (n.toList ++ outputsText id outs) := by
        rw [List.cons_prefix_cons, List.cons_prefix_cons, hr, ← List.isPrefixOf_iff_prefix, isPrefixOf_append_cons r _ hx,
          List.isPrefixOf_iff_prefix]
        exact fun h => hapart n (.head _) heq h.2.2.isInfix
      have hskip : '>' ∉ ' ' :: n.toList := by simp [hmarks n (.head _)]
      rw [if_neg heq]
      refine congrArg _ ((replace_miss hmiss).trans (congrArg ('>' :: ·) ?_))
      rw [← hrest]
      exact replace_skip hskip _

theorem methodCall_text (h : Legible schema algo proc d o outs) :
    Managed.methodCall schema d o "" algo p (callOf proc d (":" ++ d) id outs) =
      callOf (schema ++ "." ++ proc) d (":lt_model_table" ++ ("lt_" ++ algo ++ "_" ++ p.word ++ "_DATA"))
        (fun n => if n = o then "lt_" ++ algo ++ "_" ++ p.result else n) outs := by
  have hmarks : ∀ n ∈ [schema, algo, proc, d, o], ':' ∉ n.toList ∧ '>' ∉ n.toList := fun n hn =>
    h.marks n (List.mem_append_left outs hn)
  simp only [List.forall_mem_cons, List.not_mem_nil, false_imp_iff, implies_true, and_true] at hmarks
  obtain ⟨hschema, halgo, hproc, hd, ho⟩ := hmarks
  have houts : ∀ n ∈ outs, ':' ∉ n.toList ∧ '>' ∉ n.toList := fun n hn => h.marks n (List.mem_append_right [schema, algo, proc, d, o] hn)
  have hword : ':' ∉ p.word.toList ∧ '>' ∉ p.word.toList ∧ ':' ∉ p.result.toList ∧ '>' ∉ p.result.toList := by
    cases p <;> decide
  -- what stands before the first argument, and what is put in for it and for the output
  obtain ⟨front, hfront⟩ : ∃ front, front = "CALL ".toList ++ schema.toList ++ ".".toList ++ (proc.toList ++ "(".toList ++
    d.toList ++ " =".toList) := ⟨_, rfl⟩
  obtain ⟨data, hdata⟩ : ∃ data, data = "lt_".toList ++ algo.toList ++ "_".toList ++ p.word.toList ++ "_DATA".toList := ⟨_, rfl⟩
  obtain ⟨new, hnew⟩ : ∃ new, new = "lt_" ++ algo ++ "_" ++ p.result := ⟨_, rfl⟩
  have hfront' : ':' ∉ front ++ ['>', ' '] ∧ '>' ∉ front := by simp [hfront, hschema, hproc, hd]
  have hdata' : ':' ∉ data ∧ '>' ∉ ' ' :: ':' :: data := by simp [hdata, halgo, hword]
  have hresult : ∀ n ∈ outs, ':' ∉ n.toList ∧ ':' ∉ (if n = o then new else n).toList := by
    intro n hn
    refine ⟨(houts n hn).1, ?_⟩
    split
    · simp [hnew, halgo, hword]
    · exact (houts n hn).1
  have hprefixed : replace "CALL ".toList ("CALL " ++ schema ++ ".").toList (callOf proc d (":" ++ d) id outs).toList =
      front ++ ['>', ' '] ++ (':' :: d.toList ++ outputsText id outs) := by
    have honce := h.once
    rw [toList_callOf] at honce ⊢
    rw [List.append_assoc] at honce ⊢
    refine (replace_hit (c := 'C') (w := "ALL ".toList) _).trans ?_
    rw [replace_none (by simpa using honce)]
    simp [hfront]
  have hpassed : replace (':' :: d.toList) (':' :: data) (front ++ ['>', ' '] ++ (':' :: d.toList ++ outputsText id outs)) =
      front ++ '>' :: (' ' :: ':' :: data ++ outputsText id outs) := by
    have hplain : ':' ∉ outputsText id outs := not_mem_outputsText (by decide) fun n hn => ⟨(houts n hn).1, (houts n hn).1⟩
    rw [replace_once hfront'.1 hplain]
    simp
  have htaken : replace ('>' :: ' ' :: o.toList) ('>' :: ' ' :: new.toList) (front ++ '>' :: (' ' :: ':' :: data ++ outputsText id outs)) =
      front ++ ['>', ' '] ++ ([':'] ++ (data ++ outputsText (fun n => if n = o then new else n) outs)) := by
    rw [replace_skip hfront'.2, replace_miss, replace_skip hdata'.2, replace_outputsText (fun n hn => (houts n hn).2) h.apart h.named.2]
    · simp
    · obtain ⟨x, r, hx⟩ := List.exists_cons_of_ne_nil (mt String.toList_eq_nil_iff.1 h.named.1)
      rw [hx] at ho ⊢
      simp only [List.cons_append, List.cons_prefix_cons, true_and]
      rintro ⟨rfl, -⟩
      exact ho.1 (.head _)
  have hmodel : replace [':'] ":lt_model_table".toList
      (front ++ ['>', ' '] ++ ([':'] ++ (data ++ outputsText (fun n => if n = o then new else n) outs))) =
      front ++ ['>', ' '] ++ (":lt_model_table".toList ++ (data ++ outputsText (fun n => if n = o then new else n) outs)) :=
    replace_once hfront'.1 (List.not_mem_append hdata'.1 (not_mem_outputsText (by decide) hresult))
  have hkey : (":" ++ d).toList = ':' :: d.toList := by simp
  have hkey' : ("> " ++ o).toList = '>' :: ' ' :: o.toList := by simp
  have hvalue : (":lt_" ++ algo ++ "_" ++ p.word ++ "_DATA").toList = ':' :: data := by simp [hdata]
  have hvalue' : ("> lt_" ++ algo ++ "_" ++ p.result).toList = '>' :: ' ' :: new.toList := by simp [hnew]
  apply String.toList_inj.1
  simp only [Managed.methodCall, replaceText, String.toList_ofList, hprefixed, hkey, hvalue, hpassed, hkey', hvalue', htaken]
  refine hmodel.trans ?_
  rw [toList_callOf, ← hnew]
  simp [hfront, hdata]

/-! ## Files of methods -/

namespace Managed

theorem toList_unlines (a b : String) (as bs : List String) :
    ∃ front, (Container.unlines (a :: (as ++ b :: bs))).toList = front ++ '\n' :: (Container.unlines (b :: bs)).toList := by
  induction as generalizing a with
  | nil => exact ⟨a.toList, by simp [Container.unlines, String.toList_intercalate]⟩
  | cons c as ih =>
    obtain ⟨front, hfront⟩ := ih c
    refine ⟨a.toList ++ '\n' :: front, ?_⟩
    rw [List.append_assoc, List.cons_append, List.cons_append, ← hfront]
    simp [Container.unlines, String.toList_intercalate]

def callKey : String := "<<CALL_STATEMENT>>"

def callBreak : String := "\n        "

def callEnd : String := "\n\nendmethod.\n\nENDCLASS."

theorem toList_callBreak : callBreak.toList = '\n' :: "        ".toList := by decide

theorem classText_lines : ∃ lines, classText = Container.unlines lines ∧
    lines.drop 44 = ["        <<CALL_STATEMENT>>", "", "endmethod.", "", "ENDCLASS."] := ⟨_, rfl, rfl⟩

theorem toList_classText : ∃ front, classText.toList = front ++ (callBreak.toList ++ (callKey.toList ++ callEnd.toList)) := by
  obtain ⟨lines, hlines, hrest⟩ := classText_lines
  obtain ⟨a, as, has⟩ : ∃ a as, lines.take 44 = a :: as := by
    refine List.exists_cons_of_ne_nil fun h => ?_
    have hlen := congrArg List.length hrest
    have hlen' := congrArg List.length h
    simp only [List.length_drop, List.length_take, List.length_cons, List.length_nil] at hlen hlen'
    omega
  obtain ⟨front, hfront⟩ := toList_unlines a "        <<CALL_STATEMENT>>" as ["", "endmethod.", "", "ENDCLASS."]
  rw [← hrest, ← List.cons_append, ← has, List.take_append_drop] at hfront
  have htail : '\n' :: (Container.unlines (lines.drop 44)).toList = callBreak.toList ++ (callKey.toList ++ callEnd.toList) := by
    rw [hrest]
    decide +kernel
  rw [hlines]
  exact ⟨front, hfront.trans (by rw [htail])⟩

theorem callPlace_becomes {keys : List (List Char)} (hkeys : keys = classKeys.map String.toList) {value : List Char → List Char} {front out : List Char}
    (h : Becomes keys value front out) : Becomes keys value (front ++ (callBreak.toList ++ (callKey.toList ++ callEnd.toList)))
      (out ++ (callBreak.toList ++ (value callKey.toList ++ callEnd.toList))) := by
  subst hkeys
  have hhead : ∀ k ∈ classKeys.map String.toList, k.head? = some '<' := by decide
  have hplain : ∀ s : List Char, '<' ∉ s → ∀ {r t}, Becomes (classKeys.map String.toList) value r t →
      Becomes (classKeys.map String.toList) value (s ++ r) (s ++ t) := by
    intro s hs r t h
    induction s with
    | nil => exact h
    | cons c s ih =>
      obtain ⟨hc, hs⟩ := List.ne_and_not_mem_of_not_mem_cons hs
      refine .literal (noneAt_head (fun k hk hc' => hc ?_) _) (ih hs)
      rw [hhead k hk] at hc'
      exact Option.some.inj hc'
  have hlong : LongestAt (classKeys.map String.toList) (callKey.toList ++ callEnd.toList) callKey.toList :=
    longestAt_of_take (m := 3) (by decide) (by decide) (by decide) (by decide) _
  have hend : Becomes (classKeys.map String.toList) value (callEnd.toList ++ []) (callEnd.toList ++ []) := hplain _ (by decide) .done
  rw [List.append_nil] at hend
  have htail := hplain callBreak.toList (by decide) (.key hlong hend)
  rw [toList_callBreak] at htail ⊢
  exact h.append_cons (by decide) htail

theorem fileOf_call {st : Settings} {app type type' : String} (model algo signature call : String) {input output : Value}
    (hst : st.entry Setting.schema = .ok (.text schema) ∧ st.entry Setting.appId = .ok (.text app))
    (hinput : input.entry "abap_type" = .ok (.text type) ∧ input.entry "interface_name" = .ok (.text d))
    (houtput : output.entry "abap_type" = .ok (.text type') ∧ output.entry "interface_name" = .ok (.text o))
    (hp : purposeOf st output = .ok (some p)) :
    ∃ front, fileOf st ⟨some output, some input, some (.text model), some (.text algo), some call⟩ signature =
      .ok (algo ++ "_" ++ p.word ++ ".txt", front ++ callBreak ++ methodCall schema d o model algo p call ++ callEnd) := by
  obtain ⟨m, hfile, hkeys, hcall⟩ := classFile_texts model algo signature call hst hinput houtput hp
  have hnodup : (m.map Prod.fst).Nodup := hkeys ▸ by decide
  have hne : m ≠ [] := List.ne_nil_of_mem hcall
  obtain ⟨text, hfilled, hbecomes⟩ := filled_becomes ⟨hne, hnodup, hkeys ▸ by decide⟩ classText (algo ++ "_" ++ p.word ++ ".txt")
  have hvalue : tableText (textFields m) callKey.toList = (methodCall schema d o model algo p call).toList := by
    obtain ⟨q, hq, hkey, htext⟩ : ∃ q ∈ m, q.1 = callKey ∧ q.2 = methodCall schema d o model algo p call := ⟨_, hcall, rfl, rfl⟩
    rw [← hkey, ← htext]
    exact tableText_textFields hnodup hq
  have hkeys' : tableKeys m = classKeys.map String.toList := by rw [← hkeys, List.map_map]; rfl
  obtain ⟨front, hfront⟩ := toList_classText
  obtain ⟨chars, hchars⟩ := Becomes.exists_of (tableKeys m) (tableText (textFields m)) front
  obtain ⟨front', rfl⟩ : ∃ front' : String, front'.toList = chars := ⟨String.ofList chars, String.toList_ofList⟩
  have hsplit := callPlace_becomes hkeys' hchars
  rw [← hfront, hvalue] at hsplit
  have hwhole : text = front' ++ callBreak ++ methodCall schema d o model algo p call ++ callEnd := by
    apply String.toList_inj.1
    rw [hsplit.unique hbecomes]
    simp only [String.toList_append, List.append_assoc]
  rw [fileOf_eq hfile, hfilled, hwhole]
  exact ⟨_, rfl⟩

/-! ## Elements with data -/

variable {st : Settings} {c : Carried} {e : Element} {i : InputItem} {t : OutputTable}

theorem counts_of_purposeOf {table : Value} (h : purposeOf st table = .ok (some p)) : isOneOf st table [.model, .fitted] = .ok true := by
  simp only [purposeOf, isOneOf, bind_ok] at h ⊢
  obtain ⟨isModel, ⟨category, hcategory, kind, hkind, hmodel⟩, h⟩ := h
  refine ⟨category, hcategory, kind, hkind, ?_⟩
  cases kind with
  | true => rfl
  | false =>
    cases hmodel
    simp only [Bool.false_eq_true, if_false, bind_ok] at h ⊢
    obtain ⟨isFitted, hfitted, h⟩ := h
    obtain ⟨category', hcategory', kind', hkind', hfitted⟩ := hfitted
    refine ⟨category', hcategory', kind', hkind', ?_⟩
    cases kind' with
    | true => rfl
    | false =>
      cases hfitted
      cases h

theorem takeOutputs_last {before after : List Value} {table : Value}
    (hbefore : ∀ u ∈ before, ∃ b, isOneOf st u [.model, .fitted] = .ok b) (htable : isOneOf st table [.model, .fitted] = .ok true)
    (hafter : ∀ u ∈ after, isOneOf st u [.model, .fitted] = .ok false) (c : Carried) :
    ∃ others, takeOutputs st c (before ++ table :: after) = .ok ({ c with output := some table }, others) ∧
      ∀ u ∈ others, u ∈ before ++ table :: after := by
  have hrest : ∀ c, takeOutputs st c after = .ok (c, after) := by
    induction after with
    | nil => exact fun c => rfl
    | cons u after ih =>
      intro c
      simp only [takeOutputs, hafter u (.head _), ih (fun v hv => hafter v (.tail _ hv)), bind, Except.bind]
      rfl
  induction before generalizing c with
  | nil =>
    refine ⟨after, ?_, fun u hu => .tail _ hu⟩
    simp only [List.nil_append, takeOutputs, htable, bind, Except.bind]
    exact hrest _
  | cons u before ih =>
    obtain ⟨b, hb⟩ := hbefore u (.head _)
    have hbefore' := fun v hv => hbefore v (.tail _ hv)
    simp only [List.cons_append, takeOutputs, hb, bind, Except.bind]
    cases b with
    | true =>
      obtain ⟨others, hothers, hmem⟩ := ih hbefore' { c with output := some u }
      exact ⟨others, hothers, fun v hv => .tail _ (hmem v hv)⟩
    | false =>
      obtain ⟨others, hothers, hmem⟩ := ih hbefore' c
      refine ⟨u :: others, ?_, List.forall_mem_cons.2 ⟨.head _, fun v hv => .tail _ (hmem v hv)⟩⟩
      simp only [Bool.false_eq_true, if_false, hothers]
      rfl

theorem signature_ok {items : List Value} (h : ∀ u ∈ items, ∃ s, Container.renderParameter "out" u = .ok s) :
    ∃ s, Container.signature .null (.list items) = .ok s := by
  have htexts : ∃ texts, items.mapM (Container.renderParameter "out") = .ok texts := by
    induction items with
    | nil => exact ⟨[], rfl⟩
    | cons u items ih =>
      obtain ⟨s, hs⟩ := h u (.head _)
      obtain ⟨texts, htexts⟩ := ih fun v hv => h v (.tail _ hv)
      exact ⟨s :: texts, by rw [List.mapM_cons, hs, htexts]; rfl⟩
  obtain ⟨texts, htexts⟩ := htexts
  simp only [Container.signature, Container.renderParameters, Value.members, htexts, bind, Except.bind]
  cases Value.isTruthy (.list items) <;> exact ⟨_, rfl⟩

/-- An element that passes data to its procedure, and no model, and whose last output that counts is a table. -/
structure PassesData (st : Settings) (e : Element) (i : InputItem) (t : OutputTable) (p : Purpose) (proc o : String) (outs : List String) :
    Prop where
  wanted : isWanted e.toValue = .ok true
  single : e.single = true
  inputs : e.inputs = [i]
  data : isOneOf st i.toValue [.model] = .ok false
  outputs : ∃ before after, e.outputs = before ++ .table t :: after ∧
    (∀ u ∈ before, ∃ b, isOneOf st u.toValue [.model, .fitted] = .ok b) ∧ ∀ u ∈ after, isOneOf st u.toValue [.model, .fitted] = .ok false
  purpose : purposeOf st t.toValue = .ok (some p)
  name : t.name = .text o
  names : e.outputs.map OutputItem.name = outs.map Value.text
  types : ∀ u ∈ e.outputs, ∃ s, u.toValue.entry "table_type" = .ok (.text s)
  call : e.body.head? = some (.call ⟨.text proc, callTemplate [i.name] outs⟩)

theorem PassesData.taken (h : PassesData st e i t p proc o outs) {call : String}
    (hcall : statementText (CallItem.toValue ⟨.text proc, callTemplate [i.name] outs⟩) = .ok call) :
    ∃ signature, takeElement st {} e.toValue =
      .ok (⟨some t.toValue, some i.toValue, some (.text ""), some (.text e.origin.1), some call⟩, signature) := by
  obtain ⟨before, after, hout, hbefore, hafter⟩ := h.outputs
  obtain ⟨others, hothers, hmem⟩ := takeOutputs_last (List.forall_mem_map.2 hbefore) (counts_of_purposeOf h.purpose)
    (List.forall_mem_map.2 hafter) {}
  have htables : before.map OutputItem.toValue ++ t.toValue :: after.map OutputItem.toValue = e.outputs.map OutputItem.toValue := by
    rw [hout]
    simp [OutputItem.toValue]
  rw [htables] at hothers hmem
  have hsignature : ∃ s, Container.signature .null (.list others) = .ok s := by
    refine signature_ok fun u hu => ?_
    obtain ⟨item, hitem, rfl⟩ := List.mem_map.1 (hmem u hu)
    obtain ⟨n, -, hn⟩ := List.mem_map.1 (h.names ▸ List.mem_map_of_mem hitem)
    obtain ⟨type, htype⟩ := h.types item hitem
    cases item with
    | table u =>
      obtain ⟨hn, htype⟩ : u.name = .text n ∧ u.tableType = .text type := ⟨hn.symm, Except.ok.inj htype⟩
      exact ⟨_, by simp only [OutputItem.toValue, OutputTable.toValue, hn, htype]; rfl⟩
    | var v =>
      obtain ⟨hn, htype⟩ : v.name = .text n ∧ v.dataType = .text type := ⟨hn.symm, Except.ok.inj htype⟩
      exact ⟨_, by simp only [OutputItem.toValue, OutputVariable.toValue, hn, htype]; rfl⟩
  obtain ⟨signature, hsignature⟩ := hsignature
  obtain ⟨body, hbody⟩ : ∃ body, e.body = .call ⟨.text proc, callTemplate [i.name] outs⟩ :: body := by
    cases hb : e.body with
    | nil => exact nomatch hb ▸ h.call
    | cons item body =>
      have hitem := h.call
      rw [hb] at hitem
      exact ⟨body, by rw [Option.some.inj hitem]⟩
  refine ⟨signature, ?_⟩
  rw [takeElement_single h.single, hothers, h.inputs, hbody]
  have hcall' : statementText (BodyItem.call ⟨.text proc, callTemplate [i.name] outs⟩).toValue = .ok call := hcall
  have hitem : ∀ v vs, (Value.list (v :: vs)).item (.int 0) = .ok v := by
    intro v vs
    have hplace : Value.placeAmong (v :: vs).length (.int 0) = .ok 0 := by
      simp [Value.placeAmong, Value.position?]
    simp only [Value.item, hplace]
    rfl
  simp only [List.map_cons, List.map_nil, takeInputs, h.data, bind, Except.bind, Bool.false_eq_true, if_false, hitem, hcall', hsignature]
  rfl

/-- The file of an element that passes data and no model, whatever was generated before it: it holds the own call of the element,
with the schema before the procedure, and with tables of the method for the data and for the output that counts. -/
theorem generateElement_call {path : Value} {app : String} (h : PassesData st e i t p proc o outs)
    (hlegible : Legible schema e.origin.1 proc i.name o outs)
    (hst : st.entry Setting.schema = .ok (.text schema) ∧ st.entry Setting.appId = .ok (.text app))
    (hpath : st.entry Setting.abapPath = .ok path) :
    (∃ item, e.body.head? = some item ∧ statementText item.toValue = .ok (callOf proc i.name (":" ++ i.name) id outs)) ∧
    ∃ front, ∀ c s, s.settings = st → (generateElement c e.toValue >>= fun _ => pure ()) s =
      Job.writeFile path (.text (e.origin.1 ++ "_" ++ p.word ++ ".txt")) (front ++ callBreak ++
        callOf (schema ++ "." ++ proc) i.name (":lt_model_table" ++ ("lt_" ++ e.origin.1 ++ "_" ++ p.word ++ "_DATA"))
          (fun n => if n = o then "lt_" ++ e.origin.1 ++ "_" ++ p.result else n) outs ++ callEnd) s := by
  have hcall : statementText (CallItem.toValue ⟨.text proc, callTemplate [i.name] outs⟩) = .ok _ := statementText_call hlegible.fields
  obtain ⟨signature, htaken⟩ := h.taken hcall
  have hinput : i.toValue.entry "abap_type" = .ok (.text i.structureType) ∧ i.toValue.entry "interface_name" = .ok (.text i.name) := ⟨rfl, rfl⟩
  have houtput : t.toValue.entry "abap_type" = .ok (.text t.structureType) ∧ t.toValue.entry "interface_name" = .ok (.text o) :=
    ⟨rfl, h.name ▸ rfl⟩
  obtain ⟨front, hfile⟩ := fileOf_call "" e.origin.1 signature (callOf proc i.name (":" ++ i.name) id outs) hst hinput houtput h.purpose
  rw [methodCall_text hlegible] at hfile
  refine ⟨⟨_, h.call, hcall⟩, front, fun c s hs => ?_⟩
  have hhas : e.toValue.has "sql" = .ok true := by
    unfold Element.toValue
    cases e.single <;> rfl
  have htaken' := takeElement_of_all htaken (fun p => by cases p <;> rfl) c
  subst hs
  rw [generateElement_eq hpath, elementFile_of_taken ⟨h.wanted, hhas⟩ htaken', hfile]
  rfl

def dataInput : InputItem := ⟨.text "DATA", "d", .text "t", "", none, .null, none⟩

def modelOutput : OutputTable := ⟨.text "MODEL", .text "o", .null, .null, .null, .text "t", none, "", []⟩

def fittingElement : Element where
  name := "e"
  origin := ("A", "f")
  single := true
  inputs := [dataInput]
  body := [.call ⟨.text "p", callTemplate ["d"] ["o"]⟩]
  outputs := [.table modelOutput]
  groups := .list [.object [("type", .text "fit")]]

theorem generateElement_call_sample : ∃ front, ∀ c s, s.settings = classSession.settings →
    (generateElement c fittingElement.toValue >>= fun _ => pure ()) s = Job.writeFile (.text "a") (.text "A_TRAIN.txt")
      (front ++ callBreak ++ "CALL S.p(d => :lt_model_tablelt_A_TRAIN_DATA, o => lt_A_MODEL);" ++ callEnd) s := by
  have htypes : ∀ u ∈ fittingElement.outputs, ∃ s, u.toValue.entry "table_type" = .ok (.text s) := by
    intro u hu
    rw [List.mem_singleton.1 hu]
    exact ⟨"t", rfl⟩
  have hpasses : PassesData classSession.settings fittingElement dataInput modelOutput .train "p" "o" ["o"] :=
    ⟨rfl, rfl, rfl, rfl, ⟨[], [], rfl, nofun, nofun⟩, rfl, rfl, rfl, htypes, rfl⟩
  have hlegible : Legible "S" "A" "p" "d" "o" ["o"] := ⟨by decide, by decide, by simp, by decide, by decide +kernel⟩
  have hcall : callOf ("S" ++ "." ++ "p") "d" (":lt_model_table" ++ ("lt_" ++ "A" ++ "_" ++ Purpose.train.word ++ "_DATA"))
      (fun n => if n = "o" then "lt_" ++ "A" ++ "_" ++ Purpose.train.result else n) ["o"] =
      "CALL S.p(d => :lt_model_tablelt_A_TRAIN_DATA, o => lt_A_MODEL);" := by decide
  obtain ⟨-, front, hfile⟩ := generateElement_call hpasses hlegible ⟨rfl, rfl⟩ rfl
  refine ⟨front, fun c s hs => ?_⟩
  rw [← hcall, show "A_TRAIN.txt" = "A" ++ "_" ++ Purpose.train.word ++ ".txt" by decide]
  exact hfile c s hs

end Managed

end TraceArtifacts
