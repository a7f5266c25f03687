import TraceArtifacts.Proofs.Paths

/-!
# Proofs: relations and links

The relations of a base layer are those from an output table of one of its procedures to an input table of one that reads it
(`mem_buildRelations`).
-/

namespace TraceArtifacts

variable {d : Direction} {ks : List Link} {relations : List Relation} {x : ProcedureName} {r : Relation} {layers v w : Value}

/-! ## Texts -/

theorem same_text_iff {s : String} : v.same (.text s) = true ↔ v = .text s := by
  cases v <;> simp [Value.same, Value.number?]

theorem asText_ok {s : String} : v.asText = .ok s ↔ v = .text s := by
  cases v <;> simp [Value.asText]

/-! ## Where relations come from -/

theorem partsUnder_object (key : String) (fs : Fields) : partsUnder key (.object fs) = ((fs.lookup key).getD (.list [])).members := by
  unfold partsUnder
  rw [Value.entryOr_object]
  rfl

theorem Value.SameBut.partsUnder {keys : List String} (h : v.SameBut keys w) {k : String} (hk : k ∉ keys) :
    partsUnder k w = partsUnder k v := by
  unfold TraceArtifacts.partsUnder
  rw [h.entryOr hk]

def TableOf (key : String) (o t : Value) : Prop := ∃ ts, partsUnder key o = .ok ts ∧ t ∈ ts

/-- A relation from an output table of a procedure to an input table of a procedure. -/
structure Relation.Joins (layers : Value) (r : Relation) (x y : ProcedureName) : Prop where
  fromPath : r.fromPath = procedurePath x
  toPath : r.toPath = procedurePath y
  writer : ∃ o, procedureAt? layers x = some o ∧ o.entry "metadata" = .ok r.fromMetadata ∧ TableOf "output_tables" o r.fromTable
  reader : ∃ o, procedureAt? layers y = some o ∧ o.entry "metadata" = .ok r.toMetadata ∧ TableOf "input_tables" o r.toTable

def IsReadBy (t u : Value) : Prop :=
  ∃ select select', t.entry "select" = .ok select ∧ u.entry "select" = .ok select' ∧ select.isIn select' = .ok true

theorem relate_ok {a f t a' f' w' u : Value} : relate a f w t a' f' w' u = .ok r ↔
      basePath a f = .ok r.fromPath ∧ w.entry "metadata" = .ok r.fromMetadata ∧
        basePath a' f' = .ok r.toPath ∧ w'.entry "metadata" = .ok r.toMetadata ∧
        r.fromTable = t ∧ r.toTable = u := by
  simp only [relate, bind_ok, pure_ok]
  constructor
  · rintro ⟨p, hp, m, hm, p', hp', m', hm', rfl⟩
    exact ⟨hp, hm, hp', hm', rfl, rfl⟩
  · rintro ⟨hp, hm, hp', hm', rfl, rfl⟩
    exact ⟨_, hp, _, hm, _, hp', _, hm', rfl⟩

theorem mem_relationsOf {rows : Fields} (hrows : HasRows layers rows) {writer table : Value} {rs : List Relation}
    (h : relationsOf (.object rows) (.text x.1) (.text x.2) writer table = .ok rs) :
    r ∈ rs ↔ ∃ y reader input, procedureAt? layers y = some reader ∧ TableOf "input_tables" reader input ∧ IsReadBy table input ∧
      relate (.text x.1) (.text x.2) writer table (.text y.1) (.text y.2) reader input = .ok r := by
  simp only [relationsOf, bind_ok] at h
  obtain ⟨select, hselect, h⟩ := h
  rw [gatherFunctions_eq hrows] at h
  constructor
  · intro hr
    obtain ⟨⟨a, f, reader⟩, hy, part, hpart, hr⟩ := (mem_gathered h).1 hr
    obtain ⟨us, hus, hpart⟩ := bind_ok.1 hpart
    obtain ⟨input, hinput, part, hpart, hr⟩ := (mem_gathered hpart).1 hr
    simp only [bind_ok] at hpart
    obtain ⟨select', hselect', b, hb, hpart⟩ := hpart
    cases b with
    | false =>
      cases hpart
      simp at hr
    | true =>
      obtain ⟨r', hr', hpart⟩ := bind_ok.1 hpart
      cases hpart
      obtain rfl : r = r' := by simpa using hr
      exact ⟨(a, f), reader, input, (mem_proceduresOf ⟨rows, hrows⟩).1 hy, ⟨us, hus, hinput⟩, ⟨select, select', hselect, hselect', hb⟩, hr'⟩
  · rintro ⟨y, reader, input, hy, ⟨us, hus, hinput⟩, ⟨s, select', hs, hselect', hin⟩, hr⟩
    obtain rfl := ok_unique hselect hs
    have hmem := (mem_proceduresOf ⟨rows, hrows⟩).2 hy
    obtain ⟨part, hpart⟩ := gathered_part h hmem
    refine (mem_gathered h).2 ⟨_, hmem, part, hpart, ?_⟩
    obtain ⟨us', hus', hpart⟩ := bind_ok.1 hpart
    obtain rfl := ok_unique hus hus'
    refine (mem_gathered hpart).2 ⟨input, hinput, [r], ?_, List.mem_singleton_self r⟩
    simp only [bind_ok]
    refine ⟨select', hselect', true, hin, ?_⟩
    exact bind_ok.2 ⟨r, hr, rfl⟩

theorem mem_buildRelations (hb : IsBaseLayer layers) (h : buildRelations layers = .ok relations) :
    r ∈ relations ↔ ∃ x y, r.Joins layers x y ∧ IsReadBy r.fromTable r.toTable := by
  obtain ⟨rows, hrows⟩ := id hb
  unfold buildRelations at h
  rw [hrows.entry] at h
  change gatherFunctions (.object rows) _ = _ at h
  rw [gatherFunctions_eq hrows] at h
  constructor
  · intro hr
    obtain ⟨⟨a, f, writer⟩, hx, part, hpart, hr⟩ := (mem_gathered h).1 hr
    obtain ⟨ts, hts, hpart⟩ := bind_ok.1 hpart
    obtain ⟨table, htable, part, hpart, hr⟩ := (mem_gathered hpart).1 hr
    obtain ⟨y, reader, input, hy, hinput, hreads, hr⟩ := (mem_relationsOf hrows (x := (a, f)) hpart).1 hr
    obtain ⟨h1, h2, h3, h4, rfl, rfl⟩ := relate_ok.1 hr
    rw [basePath_text (a, f)] at h1
    rw [basePath_text y] at h3
    exact ⟨(a, f), y, ⟨(Except.ok.inj h1).symm, (Except.ok.inj h3).symm,
      ⟨writer, (mem_proceduresOf hb).1 hx, h2, ts, hts, htable⟩, ⟨reader, hy, h4, hinput⟩⟩, hreads⟩
  · rintro ⟨x, y, ⟨hfrom, hto, ⟨writer, hx, hm, ts, hts, htable⟩, ⟨reader, hy, hm', hinput⟩⟩, hreads⟩
    have hmem := (mem_proceduresOf hb).2 hx
    obtain ⟨part, hpart⟩ := gathered_part h hmem
    refine (mem_gathered h).2 ⟨_, hmem, part, hpart, ?_⟩
    obtain ⟨ts', hts', hpart⟩ := bind_ok.1 hpart
    obtain rfl := ok_unique hts hts'
    obtain ⟨rs, hrs⟩ := gathered_part hpart htable
    refine (mem_gathered hpart).2 ⟨_, htable, rs, hrs, ?_⟩
    refine (mem_relationsOf hrows hrs).2 ⟨y, reader, r.toTable, hy, hinput, hreads, relate_ok.2 ?_⟩
    rw [basePath_text, basePath_text, hfrom, hto]
    exact ⟨rfl, hm, rfl, hm', rfl, rfl⟩

theorem buildRelations_grounded (hb : IsBaseLayer layers) (h : buildRelations layers = .ok relations) (hr : r ∈ relations) :
    ∃ x y, r.Joins layers x y := by
  obtain ⟨x, y, hj, -⟩ := (mem_buildRelations hb h).1 hr
  exact ⟨x, y, hj⟩

section Congruence

variable {keys : List String} {layers' : Value}

theorem Alike.procedures (h : Alike keys layers layers') : List.Forall₂ (fun p q => p.1 = q.1 ∧ p.2.1 = q.2.1 ∧ p.2.2.SameBut keys q.2.2)
      (proceduresOf layers) (proceduresOf layers') := by
  have hnames := h.names.symm
  simp only [procedureNames] at hnames
  rw [← List.forall₂_eq_eq_eq, List.forall₂_map_left_iff, List.forall₂_map_right_iff] at hnames
  refine (forall₂_mem hnames).imp ?_
  rintro ⟨a, f, o⟩ ⟨a', f', o'⟩ ⟨hp, hq, he⟩
  cases he
  obtain ⟨u, hu, hs⟩ := h.procedure ((mem_proceduresOf h.base).1 hp)
  obtain rfl := Option.mem_unique hu ((mem_proceduresOf h.base').1 hq)
  exact ⟨rfl, rfl, hs⟩

theorem Alike.gatherFunctions_eq (h : Alike keys layers layers') {rows rows' : Fields}
    (hrows : HasRows layers rows) (hrows' : HasRows layers' rows')
    {ask ask' : Value → Value → Value → Outcome (List α)}
    (hask : ∀ a f o o', o.SameBut keys o' → ask' a f o' = ask a f o) :
    gatherFunctions (.object rows') ask' = gatherFunctions (.object rows) ask := by
  rw [TraceArtifacts.gatherFunctions_eq hrows, TraceArtifacts.gatherFunctions_eq hrows']
  congr 1
  refine (mapM_congr_forall₂ (m := Outcome) (h.procedures.imp ?_)).symm
  rintro ⟨a, f, o⟩ ⟨a', f', o'⟩ ⟨rfl, rfl, hs⟩
  exact (hask _ _ o o' hs).symm

theorem Alike.buildRelations_eq (h : Alike keys layers layers') (hkeys : ∀ k ∈ ["input_tables", "output_tables", "metadata"], k ∉ keys) :
    buildRelations layers' = buildRelations layers := by
  obtain ⟨rows, hrows⟩ := h.base
  obtain ⟨rows', hrows'⟩ := h.base'
  have hrelations : ∀ a f o o' t, o.SameBut keys o' → relationsOf (.object rows') a f o' t = relationsOf (.object rows) a f o t := by
    intro a f o o' t hs
    unfold relationsOf
    congr 1
    funext select
    refine h.gatherFunctions_eq hrows hrows' fun a' f' u u' hu => ?_
    simp only [hu.partsUnder (hkeys "input_tables" (by decide)), relate,
      hs.entry (hkeys "metadata" (by decide)), hu.entry (hkeys "metadata" (by decide))]
  unfold buildRelations
  rw [hrows.entry, hrows'.entry]
  refine h.gatherFunctions_eq hrows hrows' fun a f o o' hs => ?_
  rw [hs.partsUnder (hkeys "output_tables" (by decide))]
  simp only [hrelations a f o o' _ hs]

theorem buildRelations_congr (hb : IsBaseLayer layers) (h : layers'.at? [.key baseKey] = layers.at? [.key baseKey]) :
    buildRelations layers' = buildRelations layers := by
  obtain ⟨rows, hrows⟩ := hb
  unfold buildRelations
  rw [hrows.entry, Value.entry_eq_ok_iff.2 (h.trans hrows.base)]

end Congruence

/-! ## Links -/

namespace Relation

def nearPath (r : Relation) : Direction → String
  | .incoming => r.toPath
  | .outgoing => r.fromPath

def nearTable (r : Relation) : Direction → Value
  | .incoming => r.toTable
  | .outgoing => r.fromTable

def farPath (r : Relation) : Direction → String
  | .incoming => r.fromPath
  | .outgoing => r.toPath

def farTable (r : Relation) : Direction → Value
  | .incoming => r.fromTable
  | .outgoing => r.toTable

def farMetadata (r : Relation) : Direction → Value
  | .incoming => r.fromMetadata
  | .outgoing => r.toMetadata

def source (r : Relation) : ProcedureName := nameOfPath r.fromPath

def target (r : Relation) : ProcedureName := nameOfPath r.toPath

variable (r : Relation) (d : Direction)

theorem entry_farPath : r.toValue.entry (d.far ++ "_path") = .ok (.text (r.farPath d)) := by cases d <;> rfl

theorem entry_farMetadata : r.toValue.entry (d.far ++ "_metadata") = .ok (r.farMetadata d) := by cases d <;> rfl

theorem entry_farTable : r.toValue.entry (d.far ++ "_object") = .ok (r.farTable d) := by cases d <;> rfl

theorem entry_nearPath : r.toValue.entry (d.near ++ "_path") = .ok (.text (r.nearPath d)) := by cases d <;> rfl

theorem entry_nearTable : r.toValue.entry (d.near ++ "_object") = .ok (r.nearTable d) := by cases d <;> rfl

end Relation

structure Link.Follows (layers : Value) (d : Direction) (named : Bool) (r : Relation) (k : Link) :
    Prop where
  path : k.path = .text (r.farPath d)
  groups : layers.attributeAt (.text (r.farPath d)) (.text "groups") = .ok k.groups
  name : (r.farMetadata d).entry "procedure_name" = .ok k.name
  elementName : named = true → ∃ n, k.name = .text n ∧ k.elementName = some ("cons_" ++ n)
  interfaceName : (r.farTable d).entry "interface_name" = .ok k.interfaceName
  dbObjectName : (r.farTable d).entry "dbobject_name" = .ok k.dbObjectName

theorem linkOf_ok {named : Bool} {k : Link} (h : linkOf layers d named r.toValue = .ok k) : k.Follows layers d named r := by
  simp only [linkOf, r.entry_farPath, r.entry_farMetadata, r.entry_farTable, bind_ok, Except.ok.injEq, exists_eq_left'] at h
  obtain ⟨groups, hg, name, hn, h⟩ := h
  cases named with
  | false =>
    simp only [Bool.false_eq_true, if_false, bind_ok, pure_ok, Except.ok.injEq, exists_eq_left'] at h
    obtain ⟨interface, hi, db, hd, rfl⟩ := h
    exact ⟨rfl, hg, hn, fun hnamed => absurd hnamed (by simp), hi, hd⟩
  | true =>
    simp only [if_true, bind_ok, pure_ok, Except.ok.injEq, exists_eq_left'] at h
    obtain ⟨n, hn', interface, hi, db, hd, rfl⟩ := h
    exact ⟨rfl, hg, hn, fun _ => ⟨n, asText_ok.1 hn', rfl⟩, hi, hd⟩

def HasRelations (layers : Value) (relations : List Relation) : Prop :=
  layers.at? [.key relationsKey] = some (.list (relations.map Relation.toValue))

theorem HasRelations.parts (h : HasRelations layers relations) : partsUnder relationsKey layers = .ok (relations.map Relation.toValue) := by
  obtain ⟨fs, rfl, hfs⟩ := Value.entry_ok.1 (Value.entry_eq_ok_iff.2 h)
  rw [partsUnder_object, hfs]
  rfl

theorem linksWhere_ok (hrel : HasRelations layers relations) {named : Bool} {test : Value → Outcome Bool} {p : Relation → Bool}
    (htest : ∀ r ∈ relations, ∀ b, test r.toValue = .ok b → b = p r) (h : linksWhere layers d named test = .ok ks) :
    List.Forall₂ (fun r k => linkOf layers d named r.toValue = .ok k) (relations.filter p) ks := by
  simp only [linksWhere, hrel.parts, bind_ok, pure_ok, Except.ok.injEq, exists_eq_left'] at h
  obtain ⟨parts, hparts, rfl⟩ := h
  rw [List.mapM_map] at hparts
  have hall := mapM_ok.1 hparts
  clear hparts hrel
  induction hall with
  | nil => exact .nil
  | @cons r part rs parts hr _ ih =>
    have ih' := ih fun r' hr' => htest r' (.tail _ hr')
    obtain ⟨b, hb, hr⟩ := bind_ok.1 hr
    have hbp := htest r (.head _) b hb
    cases b with
    | false =>
      cases hr
      rw [List.filter_cons_of_neg (by rw [← hbp]; simp)]
      exact ih'
    | true =>
      obtain ⟨k, hk, hr⟩ := bind_ok.1 hr
      cases hr
      rw [List.filter_cons_of_pos hbp.symm]
      exact .cons hk ih'

theorem isAt_toValue (d : Direction) (path : String) (r : Relation) : isAt d path r.toValue = .ok (r.nearPath d == path) := by
  rw [isAt, r.entry_nearPath]
  show Except.ok ((Value.text (r.nearPath d)).same (.text path)) = _
  simp [Value.same]

theorem links_ok (hrel : HasRelations layers relations) (h : links layers d (.text x.1) (.text x.2) = .ok ks) :
    List.Forall₂ (fun r k => linkOf layers d false r.toValue = .ok k) (relations.filter fun r => r.nearPath d == procedurePath x) ks := by
  unfold links at h
  rw [basePath_text] at h
  refine linksWhere_ok hrel (fun r _ b hb => ?_) h
  rw [Value.has_of_entry (r.entry_nearPath d), Value.has_of_entry (r.entry_nearTable d)] at hb
  change isAt d (procedurePath x) r.toValue = .ok b at hb
  rw [isAt_toValue] at hb
  exact (Except.ok.inj hb).symm

def Relation.isAtTable (d : Direction) (x : ProcedureName) (interface : Value) (r : Relation) : Bool :=
  r.nearPath d == procedurePath x && ((r.nearTable d).get "interface_name").same interface

theorem linksOfTable_ok (hrel : HasRelations layers relations) {i : Value} (h : linksOfTable layers d (.text x.1) (.text x.2) i = .ok ks) :
    List.Forall₂ (fun r k => linkOf layers d true r.toValue = .ok k) (relations.filter (Relation.isAtTable d x i)) ks := by
  unfold linksOfTable at h
  rw [basePath_text] at h
  refine linksWhere_ok hrel (fun r _ b hb => ?_) h
  rw [isAt_toValue, r.entry_nearTable] at hb
  unfold Relation.isAtTable
  cases hpath : r.nearPath d == procedurePath x with
  | false =>
    rw [hpath] at hb
    exact (Except.ok.inj hb).symm
  | true =>
    rw [hpath] at hb
    change (do return (← (r.nearTable d).entry "interface_name").same i : Outcome Bool) = .ok b at hb
    obtain ⟨v, hv, hb⟩ := bind_ok.1 hb
    cases hb
    rw [Value.get_of_entry hv, Bool.true_and]

end TraceArtifacts
