import TraceArtifacts.Proofs.Arranging
import TraceArtifacts.Proofs.Reprocessing

/-!
# Proofs: the names of tables in a signature

The name of a table in the signature of its procedure starts with its category, if it has one.
-/

namespace TraceArtifacts

open Text

variable {settings : Settings} {c name name' : String} {algo function statements t u : Value}

/-! ## Categories -/

theorem categoryIn_mem {categories : List String} {v : Value} (h : categoryIn categories v = .ok (some c)) : c ∈ categories := by
  induction categories with
  | nil => cases Except.ok.inj h
  | cons d categories ih =>
    obtain ⟨b, -, h⟩ := bind_ok.1 h
    cases b with
    | true =>
      obtain rfl := Option.some.inj (pure_ok.1 h)
      exact List.mem_cons_self
    | false => exact List.mem_cons_of_mem d (ih h)

/-- What a category tells of a table with a name: it is a known one, and without one there is none in the name. -/
structure IsCategoryFor (category : Option String) (name : String) : Prop where
  known : ∀ c ∈ category, c ∈ tableCategories
  absent : category = none → ∀ c ∈ tableCategories, containsText (lowerText name) (lowerText c) = false

theorem findCategory_isCategoryFor {category : Option String} (h : findCategory t name = .ok category) : IsCategoryFor category name := by
  unfold findCategory at h
  split at h
  · next c hc =>
    cases h
    refine ⟨fun d hd => ?_, nofun⟩
    obtain rfl := Option.mem_some.1 hd
    exact List.mem_of_find?_eq_some hc
  · next hnone =>
    refine ⟨?_, fun _ c hc => by simpa using List.find?_eq_none.1 hnone c hc⟩
    rintro c rfl
    obtain ⟨b, -, h⟩ := bind_ok.1 h
    cases b with
    | true =>
      obtain ⟨v, -, h⟩ := bind_ok.1 h
      exact categoryIn_mem h
    | false =>
      simp only [Bool.false_eq_true, if_false, bind_ok] at h
      obtain ⟨_, -, select, -, h⟩ := h
      split at h
      · cases pure_ok.1 h
      · exact categoryIn_mem h

/-! ## Names -/

def categoryMark : Option String → List Char
  | some c => (lowerText c).toList ++ ['_']
  | none => []

theorem toList_interfaceNameOf (mark : String) (category : Option String) (name algo function : String) :
    (interfaceNameOf mark category name algo function).toList = mark.toList ++ (categoryMark category ++ (lowerText name).toList ++
      '_' :: ((plainLower algo).toList ++ '_' :: (plainLower function).toList)) := by
  cases category <;> simp [interfaceNameOf, categoryMark]

theorem categoryMark_inj {d : String} (hc : c ∈ tableCategories) (hd : d ∈ tableCategories) {r s : List Char}
    (h : categoryMark (some c) ++ r = categoryMark (some d) ++ s) : c = d := by
  have hall : ∀ c ∈ tableCategories, ∀ d ∈ tableCategories,
      (categoryMark (some c)).isPrefixOf (categoryMark (some d)) = true → c = d := by decide +kernel
  rcases List.prefix_or_prefix_of_prefix ⟨r, h⟩ ⟨s, rfl⟩ with hprefix | hprefix
  · exact hall c hc d hd (List.isPrefixOf_iff_prefix.2 hprefix)
  · exact (hall d hd c hc (List.isPrefixOf_iff_prefix.2 hprefix)).symm

theorem IsCategoryFor.eq_of_append_eq {c c' : Option String} (h : IsCategoryFor c name) (h' : IsCategoryFor c' name')
    (he : categoryMark c ++ (lowerText name).toList = categoryMark c' ++ (lowerText name').toList) : c = c' := by
  -- a name with a category in front of it has the category in it
  have hmark : ∀ {d : String} {n n' : String}, IsCategoryFor none n → d ∈ tableCategories →
      (lowerText n).toList = categoryMark (some d) ++ (lowerText n').toList → False := by
    intro d n n' hn hd heq
    have hin : containsText (lowerText n) (lowerText d) = true := by
      refine occurs_iff_isInfix.2 ⟨[], '_' :: (lowerText n').toList, ?_⟩
      simp [heq, categoryMark]
    rw [hn.absent rfl d hd] at hin
    cases hin
  cases c with
  | none =>
    cases c' with
    | none => rfl
    | some c' => exact (hmark h (h'.known c' rfl) he).elim
  | some c =>
    cases c' with
    | none => exact (hmark h' (h.known c rfl) he.symm).elim
    | some c' => rw [categoryMark_inj (h.known c rfl) (h'.known c' rfl) he]

theorem interfaceNameOf_eq_iff {c c' : Option String} (h : IsCategoryFor c name) (h' : IsCategoryFor c' name')
    (mark algo function : String) :
    interfaceNameOf mark c name algo function = interfaceNameOf mark c' name' algo function ↔
      c = c' ∧ lowerText name = lowerText name' := by
  rw [← String.toList_inj, toList_interfaceNameOf, toList_interfaceNameOf, List.append_cancel_left_eq, List.append_cancel_right_eq]
  constructor
  · intro he
    obtain rfl := h.eq_of_append_eq h' he
    exact ⟨rfl, String.toList_inj.1 (List.append_cancel_left he)⟩
  · rintro ⟨rfl, hname⟩
    rw [hname]

/-! ## Tables -/

/-- What a table is called. -/
structure TableNaming where
  name : String
  category : Option String
  interface : String
  object : String
  context : String

/-- What naming a table of a procedure determines, and what is stored of it. -/
structure TableNamed (settings : Settings) (algo function t u : Value) (n : TableNaming) : Prop where
  traced : t.textEntry "name" = .ok n.name
  category : IsCategoryFor n.category (cleanText n.name)
  interface : interfaceNameFor "lt_" n.category (cleanText n.name) algo function = .ok n.interface
  object : objectNameFor [algo, function, .text n.interface] = .ok n.object
  context : settings.text Setting.entityContext = .ok n.context
  storedCategory : u.entry "cat" = .ok (.ofText? n.category)
  storedInterface : u.entry "interface_name" = .ok (.text n.interface)
  storedObject : u.entry "dbobject_name" = .ok (.text (contextName n.context n.object))

theorem extendTable_named (h : extendTable settings algo function statements t = .ok u) (hn : t.has "name" = .ok true) :
    ∃ n, TableNamed settings algo function t u n := by
  simp only [extendTable, bind_ok] at h
  obtain ⟨t1, h1, ss, -, h⟩ := h
  have hentry : ∀ {key}, key ∉ ["in_sql"] → u.entry key = t1.entry key := fun hkey => foldlM_noteStatement_entry hkey h
  rw [nameTable, hn] at h1
  simp only [bind_ok, Except.ok.injEq, exists_eq_left', if_not_true, pure_ok] at h1
  obtain ⟨name, hname, category, hcategory, interface, hinterface, object, hobject, context, hcontext, schema, -, rfl⟩ := h1
  obtain ⟨fs, rfl, -⟩ := Value.entry_ok.1 (textEntry_ok hname)
  exact ⟨⟨name, category, interface, object, context⟩, hname, findCategory_isCategoryFor hcategory, hinterface, hobject, hcontext,
    (hentry (by decide)).trans (Value.entry_withEntries rfl), (hentry (by decide)).trans (Value.entry_withEntries rfl),
    (hentry (by decide)).trans (Value.entry_withEntries rfl)⟩

theorem extendTable_has {name : Value} (h : extendTable settings algo function statements t = .ok u) (hn : u.entry "name" = .ok name) :
    t.has "name" = .ok true := by
  simp only [extendTable, bind_ok] at h
  obtain ⟨t1, h1, ss, -, h⟩ := h
  rw [foldlM_noteStatement_entry (by decide) h] at hn
  obtain ⟨b, hb, h1⟩ := bind_ok.1 h1
  cases b with
  | false =>
    cases h1
    rw [Value.has_of_entry hn] at hb
    cases hb
  | true => exact hb

theorem TableNamed.interface_eq_iff {settings' : Settings} {t' u' : Value} {n n' : TableNaming}
    (h : TableNamed settings algo function t u n) (h' : TableNamed settings' algo function t' u' n') :
    n.interface = n'.interface ↔ n.category = n'.category ∧ lowerText (cleanText n.name) = lowerText (cleanText n'.name) := by
  have hinterface := h.interface
  have hinterface' := h'.interface
  simp only [interfaceNameFor, bind_ok, pure_ok] at hinterface hinterface'
  obtain ⟨a, ha, f, hf, hn⟩ := hinterface
  obtain ⟨a', ha', f', hf', hn'⟩ := hinterface'
  obtain rfl := ok_unique ha ha'
  obtain rfl := ok_unique hf hf'
  rw [← hn, ← hn', interfaceNameOf_eq_iff h.category h'.category]

theorem Value.ofText?_injective : Function.Injective Value.ofText? := by
  rintro (_ | s) (_ | s') h
  · rfl
  · cases h
  · cases h
  · rw [Value.text.inj h]

/-- The tables may be of one list or of two, such as the inputs and the outputs of the procedure. -/
theorem extendTables_interface_eq_iff {settings settings' : Settings} {algo function statements statements' tables tables' v v' : Value}
    (h : extendTables settings algo function statements tables = .ok v)
    (h' : extendTables settings' algo function statements' tables' = .ok v') :
    ∃ ts us ts' us', tables.members = .ok ts ∧ v = .list us ∧ us.length = ts.length ∧
      tables'.members = .ok ts' ∧ v' = .list us' ∧ us'.length = ts'.length ∧
      ∀ t u, (t, u) ∈ ts.zip us → t.has "name" = .ok true → ∀ t' u', (t', u') ∈ ts'.zip us' → t'.has "name" = .ok true →
        ∃ name name' category category' interface interface', t.textEntry "name" = .ok name ∧ t'.textEntry "name" = .ok name' ∧
          u.entry "cat" = .ok category ∧ u'.entry "cat" = .ok category' ∧
          u.entry "interface_name" = .ok (.text interface) ∧ u'.entry "interface_name" = .ok (.text interface') ∧
          (interface = interface' ↔ category = category' ∧ lowerText (cleanText name) = lowerText (cleanText name')) := by
  simp only [extendTables, bind_ok, pure_ok, mapM_ok] at h h'
  obtain ⟨ts, hts, us, hus, rfl⟩ := h
  obtain ⟨ts', hts', us', hus', rfl⟩ := h'
  refine ⟨ts, us, ts', us', hts, rfl, hus.length_eq.symm, hts', rfl, hus'.length_eq.symm, ?_⟩
  intro t u hu hname t' u' hu' hname'
  obtain ⟨n, hn⟩ := extendTable_named ((List.forall₂_iff_zip.1 hus).2 hu) hname
  obtain ⟨n', hn'⟩ := extendTable_named ((List.forall₂_iff_zip.1 hus').2 hu') hname'
  refine ⟨n.name, n'.name, .ofText? n.category, .ofText? n'.category, n.interface, n'.interface, hn.traced, hn'.traced,
    hn.storedCategory, hn'.storedCategory, hn.storedInterface, hn'.storedInterface, ?_⟩
  rw [hn.interface_eq_iff hn', Value.ofText?_injective.eq_iff]

def renamedTable : Value := .object [("name", .text "#X"), ("orig_name", .text "DATA")]

def tellingTable : Value := .object [("name", .text "#DATA_X")]

theorem extendTables_interface_eq_iff_sample : ∃ u u', extendTables [(Setting.entityContext, .text "c"), (Setting.schema, .text "S")]
      (.text "A") (.text "f") (.list []) (.list [renamedTable, tellingTable]) = .ok (.list [u, u']) ∧
    u.entry "interface_name" ≠ u'.entry "interface_name" := by
  have hrun : (extendTables [(Setting.entityContext, .text "c"), (Setting.schema, .text "S")] (.text "A") (.text "f") (.list [])
      (.list [renamedTable, tellingTable])).toOption.isSome = true := by decide +kernel
  obtain ⟨v, hv⟩ := Option.isSome_iff_exists.1 hrun
  have h := eq_ok_of_toOption hv
  obtain ⟨_, us, _, us', hts, rfl, hlength, hts', hus, -, hall⟩ := extendTables_interface_eq_iff h h
  cases hts
  cases hts'
  cases hus
  obtain ⟨u, u', rfl⟩ := List.length_eq_two.1 hlength
  obtain ⟨name, name', _, _, interface, interface', hname, hname', -, -, hi, hi', hiff⟩ :=
    hall renamedTable u (by simp) rfl tellingTable u' (by simp) rfl
  refine ⟨u, u', h, fun heq => ?_⟩
  rw [hi, hi', Except.ok.injEq, Value.text.injEq, hiff] at heq
  obtain rfl : "#X" = name := Except.ok.inj hname
  obtain rfl : "#DATA_X" = name' := Except.ok.inj hname'
  exact absurd heq.2 (by decide +kernel)

end TraceArtifacts
