import Mathlib.Algebra.BigOperators.Group.List.Basic
import Mathlib.Data.List.ProdSigma
import TraceArtifacts.Proofs.GroupCounts

/-!
# Proofs: how often procedures are linked

Two procedures are linked as often as an input of the one reads an output of the other, and from both sides alike
(`links_transpose`).
-/

namespace TraceArtifacts

variable {d : Direction} {r : Relation}

/-! ## Counting what is gathered -/

theorem countP_gathered {f : α → Outcome (List β)} {xs : List α} {ys : List β}
    (h : (do return (← xs.mapM f).flatten : Outcome (List β)) = .ok ys) {p : β → Bool} (count : α → Nat)
    (hcount : ∀ x ∈ xs, ∀ part, f x = .ok part → part.countP p = count x) : ys.countP p = (xs.map count).sum := by
  obtain ⟨parts, hparts, he⟩ := bind_ok.1 h
  obtain rfl := pure_ok.1 he
  have hall := mapM_ok.1 hparts
  clear h hparts he
  induction hall with
  | nil => rfl
  | cons hpart _ ih =>
    rw [List.flatten_cons, List.countP_append, List.map_cons, List.sum_cons, hcount _ List.mem_cons_self _ hpart,
      ih fun x hx => hcount x (.tail _ hx)]

theorem countP_gathered_single {f : α → Outcome (List β)} {xs : List α} {ys : List β}
    (h : (do return (← xs.mapM f).flatten : Outcome (List β)) = .ok ys) {p : β → Bool} (hnd : xs.Nodup) {x : α} (hx : x ∈ xs)
    (hother : ∀ x' ∈ xs, x' ≠ x → ∀ part, f x' = .ok part → ∀ y ∈ part, p y = false) {part : List β} (hpart : f x = .ok part) :
    ys.countP p = part.countP p := by
  classical
  have hcount : ∀ x' ∈ xs, ∀ part', f x' = .ok part' → part'.countP p = if x' = x then part.countP p else 0 := by
    intro x' hx' part' hpart'
    split_ifs with he
    · obtain rfl := he
      rw [ok_unique hpart' hpart]
    · exact List.countP_eq_zero.2 fun y hy => by simp [hother x' hx' he part' hpart' y hy]
  rw [countP_gathered h _ hcount, List.sum_map_eq_nsmul_single x _ fun x' hne _ => if_neg hne, List.count_eq_one_of_mem hnd hx, if_pos rfl,
    one_nsmul]

/-! ## Counting relations -/

def isReadBy (t u : Value) : Bool := containsText (u.textAt "select") (t.textAt "select")

/-- A base layer with its relations that links can be read from. -/
structure Linkable (layers : Value) (relations : List Relation) : Prop extends Groupable layers relations where
  selects : ∀ {x o t}, procedureAt? layers x = some o → TableOf "input_tables" o t ∨ TableOf "output_tables" o t →
    ∃ s, t.entry "select" = .ok (.text s)
  names : ∀ {x o m name}, procedureAt? layers x = some o → o.entry "metadata" = .ok m → m.entry "procedure_name" = .ok name →
    ∃ n, name = .text n

def Relation.isBetween (x y : ProcedureName) (r : Relation) : Bool := r.fromPath == procedurePath x && r.toPath == procedurePath y

section Counting

variable {layers l : Value} {relations : List Relation} {x y : ProcedureName}

theorem proceduresOf_nodup (hb : IsBaseLayer layers) : (proceduresOf layers).Nodup := (procedureNames_nodup hb).of_map _

theorem Linkable.path_beq (h : Linkable layers relations) {p q : String × String × Value} (hp : p ∈ proceduresOf layers)
    (hq : q ∈ proceduresOf layers) (hne : p ≠ q) :
    (procedurePath (p.1, p.2.1) == procedurePath (q.1, q.2.1)) = false := by
  rw [beq_eq_false_iff_ne]
  intro he
  have hname := procedurePath_injective (h.slashFree _ (List.mem_map_of_mem hp)) he
  refine hne (List.inj_on_of_nodup_map (procedureNames_nodup h.base) hp hq hname)

theorem isReadBy_run {t u : Value} {s s' : String} (ht : t.entry "select" = .ok (.text s)) (hu : u.entry "select" = .ok (.text s')) :
    (Value.text s).isIn (.text s') = .ok (isReadBy t u) := by
  rw [isReadBy, Value.textAt, Value.textAt, Value.get_of_entry ht, Value.get_of_entry hu]
  rfl

theorem countP_relationsOf (h : Linkable layers relations) {rows : Fields} (hrows : HasRows layers rows) {o' table writer : Value}
    (ho' : procedureAt? layers y = some o') {ins : List Value} (hins : partsUnder "input_tables" o' = .ok ins) {s : String}
    (hs : table.entry "select" = .ok (.text s)) {rs : List Relation}
    (hrs : relationsOf (.object rows) (.text x.1) (.text x.2) writer table = .ok rs) :
    rs.countP (Relation.isBetween x y) = ins.countP (isReadBy table) := by
  have hy := (mem_proceduresOf h.base).2 ho'
  simp only [relationsOf, hs, bind_ok, Except.ok.injEq, exists_eq_left'] at hrs
  rw [gatherFunctions_eq hrows] at hrs
  obtain ⟨part, hpart⟩ := gathered_part hrs hy
  rw [countP_gathered_single hrs (proceduresOf_nodup h.base) hy (fun p hp hne part' hpart' r hr => ?_) hpart]
  · obtain ⟨ins', hins', hpart⟩ := bind_ok.1 hpart
    obtain rfl := ok_unique hins' hins
    rw [countP_gathered hpart (fun u => if isReadBy table u then 1 else 0) fun u hu part hfound => ?_]
    · clear hins' hpart hins
      induction ins' with
      | nil => rfl
      | cons u us ih => rw [List.map_cons, List.sum_cons, List.countP_cons, ih, Nat.add_comm]
    · obtain ⟨s', hs'⟩ := h.selects ho' (.inl ⟨ins', hins', hu⟩)
      simp only [hs', isReadBy_run hs hs', bind_ok, Except.ok.injEq, exists_eq_left'] at hfound
      cases hread : isReadBy table u with
      | false =>
        rw [hread] at hfound
        cases hfound
        rfl
      | true =>
        rw [hread] at hfound
        obtain ⟨r, hr, hfound⟩ := bind_ok.1 hfound
        cases hfound
        obtain ⟨hfrom, -, hto, -⟩ := relate_ok.1 hr
        rw [basePath_text] at hfrom hto
        simp [Relation.isBetween, ← Except.ok.inj hfrom, ← Except.ok.inj hto]
  -- the relations to other procedures have other paths
  · obtain ⟨ins', -, hpart'⟩ := bind_ok.1 hpart'
    obtain ⟨u, -, found, hfound, hr⟩ := (mem_gathered hpart').1 hr
    simp only [bind_ok] at hfound
    obtain ⟨select', -, b, -, hfound⟩ := hfound
    cases b with
    | false =>
      cases hfound
      cases hr
    | true =>
      obtain ⟨r', hr', hfound⟩ := bind_ok.1 hfound
      cases hfound
      obtain rfl := List.mem_singleton.1 hr
      obtain ⟨-, -, hto, -⟩ := relate_ok.1 hr'
      rw [basePath_text (p.1, p.2.1)] at hto
      rw [Relation.isBetween, ← Except.ok.inj hto, h.path_beq hp hy hne, Bool.and_false]

theorem countP_relations (h : Linkable layers relations) {o o' : Value} (ho : procedureAt? layers x = some o)
    (ho' : procedureAt? layers y = some o') {outs ins : List Value} (houts : partsUnder "output_tables" o = .ok outs)
    (hins : partsUnder "input_tables" o' = .ok ins) :
    relations.countP (Relation.isBetween x y) = (outs ×ˢ ins).countP fun p => isReadBy p.1 p.2 := by
  obtain ⟨rows, hrows⟩ := h.base
  have hx := (mem_proceduresOf h.base).2 ho
  have hbuilt := h.built
  unfold buildRelations at hbuilt
  rw [hrows.entry] at hbuilt
  change gatherFunctions (.object rows) _ = _ at hbuilt
  rw [gatherFunctions_eq hrows] at hbuilt
  obtain ⟨part, hpart⟩ := gathered_part hbuilt hx
  rw [countP_gathered_single hbuilt (proceduresOf_nodup h.base) hx (fun p hp hne part' hpart' r hr => ?_) hpart]
  · obtain ⟨outs', houts', hpart⟩ := bind_ok.1 hpart
    obtain rfl := ok_unique houts' houts
    rw [countP_gathered hpart (fun t => ins.countP (isReadBy t)) fun t ht rs hrs => ?_]
    · rw [show outs' ×ˢ ins = outs'.flatMap fun t => ins.map (Prod.mk t) from rfl, List.countP_flatMap]
      congr 1
      refine List.map_congr_left fun t _ => ?_
      rw [Function.comp_apply, List.countP_map]
      rfl
    · obtain ⟨s, hs⟩ := h.selects ho (.inr ⟨outs', houts', ht⟩)
      exact countP_relationsOf h hrows ho' hins hs hrs
  -- the relations from other procedures have other paths
  · obtain ⟨outs', -, hpart'⟩ := bind_ok.1 hpart'
    obtain ⟨t, -, rs, hrs, hr⟩ := (mem_gathered hpart').1 hr
    obtain ⟨_, _, _, -, -, -, hr⟩ := (mem_relationsOf hrows (x := (p.1, p.2.1)) hrs).1 hr
    obtain ⟨hfrom, -⟩ := relate_ok.1 hr
    rw [basePath_text (p.1, p.2.1)] at hfrom
    rw [Relation.isBetween, ← Except.ok.inj hfrom, h.path_beq hp hx hne, Bool.false_and]

/-! ## Links from both sides -/

theorem countP_links (hrel : HasRelations l relations) {ks : List Link} (hks : links l d (.text x.1) (.text x.2) = .ok ks)
    (y : ProcedureName) :
    ks.countP (fun k => k.path.same (.text (procedurePath y))) =
      relations.countP fun r => r.nearPath d == procedurePath x && r.farPath d == procedurePath y := by
  have hall := links_ok hrel hks
  have hcount : ∀ {rs : List Relation} {ks : List Link}, List.Forall₂ (fun r k => linkOf l d false r.toValue = .ok k) rs ks →
      ks.countP (fun k => k.path.same (.text (procedurePath y))) = rs.countP fun r => r.farPath d == procedurePath y := by
    intro rs ks h
    induction h with
    | nil => rfl
    | @cons r k rs ks hk _ ih =>
      have hsame : k.path.same (.text (procedurePath y)) = (r.farPath d == procedurePath y) := by
        rw [(linkOf_ok hk).path]
        simp [Value.same]
      rw [List.countP_cons, List.countP_cons, ih, hsame]
  rw [hcount hall, List.countP_filter]
  simp only [Bool.and_comm]

def Link.unnamed (k : Link) : Link := { k with elementName := none }

theorem linkOf_unnamed {l : Value} {k : Link} (h : linkOf l d true r.toValue = .ok k) : linkOf l d false r.toValue = .ok k.unnamed := by
  simp only [linkOf, r.entry_farPath, r.entry_farMetadata, r.entry_farTable, bind_ok, Except.ok.injEq, exists_eq_left', if_true,
    pure_ok] at h
  obtain ⟨groups, hg, name, hn, n, hn', interface, hi, db, hd, rfl⟩ := h
  simp only [linkOf, r.entry_farPath, r.entry_farMetadata, r.entry_farTable, hg, hn, hi, hd, bind_ok, pure_ok,
    Except.ok.injEq, exists_eq_left', Bool.false_eq_true, if_false]
  rfl

def fromTables (d : Direction) (i : Value) (relations : List Relation) (x : ProcedureName) (ks : List Link) : List Link :=
  (((relations.filter fun r => r.nearPath d == procedurePath x).zip ks).filter fun p =>
    ((p.1.nearTable d).get "interface_name").same i).map Prod.snd

theorem forall₂_filter_zip {R : α → β → Prop} {xs : List α} {ys : List β} (h : List.Forall₂ R xs ys) (p : α → Bool) :
    List.Forall₂ R (xs.filter p) (((xs.zip ys).filter fun q => p q.1).map Prod.snd) := by
  induction h with
  | nil => exact .nil
  | @cons x y xs ys hxy _ ih =>
    rw [List.zip_cons_cons, List.filter_cons, List.filter_cons]
    cases p x with
    | true => exact .cons hxy ih
    | false => exact ih

theorem linksOfTable_unnamed (hrel : HasRelations l relations) {i : Value} {ks named : List Link}
    (hks : links l d (.text x.1) (.text x.2) = .ok ks) (hnamed : linksOfTable l d (.text x.1) (.text x.2) i = .ok named) :
    named.map Link.unnamed = fromTables d i relations x ks := by
  have hfound := forall₂_filter_zip (links_ok hrel hks) fun r => ((r.nearTable d).get "interface_name").same i
  rw [List.filter_filter] at hfound
  have htable : List.Forall₂ (fun r k => linkOf l d false r.toValue = .ok k)
      (relations.filter fun r => ((r.nearTable d).get "interface_name").same i && (r.nearPath d == procedurePath x))
      (named.map Link.unnamed) := by
    rw [List.forall₂_map_right_iff]
    have hfilter : relations.filter (Relation.isAtTable d x i) = relations.filter fun r =>
        ((r.nearTable d).get "interface_name").same i && (r.nearPath d == procedurePath x) :=
      List.filter_congr fun r _ => Bool.and_comm ..
    rw [← hfilter]
    exact (linksOfTable_ok hrel hnamed).imp fun r k hk => linkOf_unnamed hk
  exact ok_unique (mapM_ok.2 htable) (mapM_ok.2 hfound)

theorem Linkable.near (h : Linkable layers relations) (hr : r ∈ relations) (d : Direction) :
    ∃ i, (r.nearTable d).entry "interface_name" = .ok i := by
  cases d with
  | incoming =>
    obtain ⟨-, i, -, -, hi, -⟩ := h.far hr .outgoing
    exact ⟨i, hi⟩
  | outgoing =>
    obtain ⟨-, i, -, -, hi, -⟩ := h.far hr .incoming
    exact ⟨i, hi⟩

theorem Linkable.farName (h : Linkable layers relations) (hr : r ∈ relations) (d : Direction) :
    ∃ n, (r.farMetadata d).entry "procedure_name" = .ok (.text n) := by
  obtain ⟨name, -, -, hname, -⟩ := h.far hr d
  obtain ⟨x, y, hj⟩ := buildRelations_grounded h.base h.built hr
  obtain ⟨o, ho, hm, -⟩ := hj.writer
  obtain ⟨o', ho', hm', -⟩ := hj.reader
  obtain ⟨n, rfl⟩ : ∃ n, name = .text n := by
    cases d with
    | incoming => exact h.names ho hm hname
    | outgoing => exact h.names ho' hm' hname
  exact ⟨n, hname⟩

theorem linkOf_named {k : Link} (h : linkOf l d false r.toValue = .ok k) {n : String}
    (hn : (r.farMetadata d).entry "procedure_name" = .ok (.text n)) : ∃ k', linkOf l d true r.toValue = .ok k' := by
  obtain ⟨-, hg, -, -, hi, hd⟩ := linkOf_ok h
  rw [linkOf, r.entry_farPath]
  show ∃ k', (l.attributeAt (.text (r.farPath d)) (.text "groups") >>= fun groups => _) = .ok k'
  rw [hg, r.entry_farMetadata]
  show ∃ k', ((r.farMetadata d).entry "procedure_name" >>= fun name => _) = .ok k'
  rw [hn, r.entry_farTable]
  show ∃ k', ((r.farTable d).entry "interface_name" >>= fun i => _) = .ok k'
  rw [hi, hd]
  exact ⟨_, rfl⟩

theorem linksOfTable_run (h : Linkable layers relations) (hl : Ready layers l) (d : Direction) (x : ProcedureName) (i : Value) :
    ∃ ks, linksOfTable l d (.text x.1) (.text x.2) i = .ok ks := by
  have hrel : HasRelations l relations := hl.alike.relations.trans h.noted
  rw [linksOfTable, basePath_text]
  refine linksWhere_run (p := Relation.isAtTable d x i) hrel (fun r hr => ?_) fun r hr => ?_
  · obtain ⟨i', hi'⟩ := h.near hr d
    rw [isAt_toValue, r.entry_nearTable, Relation.isAtTable, Value.get_of_entry hi']
    show (if (!(r.nearPath d == procedurePath x)) = true then pure false else
      (do return (← (r.nearTable d).entry "interface_name").same i : Outcome Bool)) = _
    rw [hi']
    cases r.nearPath d == procedurePath x <;> rfl
  · obtain ⟨k, hk⟩ := linkOf_run h.toGroupable hl hr d
    obtain ⟨n, hn⟩ := h.farName hr d
    exact linkOf_named hk hn

/-- Two procedures are linked as often from the one side as from the other: once for each pair of an output and an input whose
select it is part of. -/
theorem links_transpose (h : Linkable layers relations) (hl : Ready layers l) {o o' : Value} (ho : procedureAt? layers x = some o)
    (ho' : procedureAt? layers y = some o') {outs ins : List Value} (houts : partsUnder "output_tables" o = .ok outs)
    (hins : partsUnder "input_tables" o' = .ok ins) :
    (∃ kids parents, links l .outgoing (.text x.1) (.text x.2) = .ok kids ∧ links l .incoming (.text y.1) (.text y.2) = .ok parents ∧
      kids.countP (fun k => k.path.same (.text (procedurePath y))) = (outs ×ˢ ins).countP (fun p => isReadBy p.1 p.2) ∧
      parents.countP (fun k => k.path.same (.text (procedurePath x))) = (outs ×ˢ ins).countP fun p => isReadBy p.1 p.2) ∧
    ∀ d i, ∃ ks named, links l d (.text x.1) (.text x.2) = .ok ks ∧ linksOfTable l d (.text x.1) (.text x.2) i = .ok named ∧
      named.map Link.unnamed = fromTables d i relations x ks := by
  have hrel : HasRelations l relations := hl.alike.relations.trans h.noted
  obtain ⟨kids, hkids, -⟩ := links_run h.toGroupable hl .outgoing x
  obtain ⟨parents, hparents, -⟩ := links_run h.toGroupable hl .incoming y
  have hcount := countP_relations h ho ho' houts hins
  refine ⟨⟨kids, parents, hkids, hparents, ?_, ?_⟩, fun d i => ?_⟩
  · rw [countP_links hrel hkids]
    exact hcount
  · rw [countP_links hrel hparents, ← hcount]
    exact List.countP_congr fun r _ => by rw [Relation.isBetween, Bool.and_comm]; exact Iff.rfl
  · obtain ⟨ks, hks, -⟩ := links_run h.toGroupable hl d x
    obtain ⟨named, hnamed⟩ := linksOfTable_run h hl d x i
    exact ⟨ks, named, hks, hnamed, linksOfTable_unnamed hrel hks hnamed⟩

end Counting

theorem preparedLayers_linkable : Linkable preparedLayers preparedRelations where
  toGroupable := preparedLayers_groupable
  selects := by
    intro x o t ho ht
    obtain ⟨name, inputs, outputs, rfl, htables⟩ := preparedLayers_procedure ho
    obtain ⟨n, s, rfl⟩ := htables _ (sampleProcedure_table ht)
    exact ⟨s, rfl⟩
  names := by
    intro x o m name ho hm hname
    obtain ⟨n, inputs, outputs, rfl, -⟩ := preparedLayers_procedure ho
    cases hm
    cases hname
    exact ⟨n, rfl⟩

/-- Both inputs of the procedure that fits read the one output of the other. -/
theorem links_transpose_sample : ∃ kids parents, links preparedLayers .outgoing (.text "Scaler") (.text "Transform") = .ok kids ∧
      links preparedLayers .incoming (.text "Forest") (.text "Fit") = .ok parents ∧
      kids.countP (fun k => k.path.same (.text (procedurePath ("Forest", "Fit")))) = 2 ∧
      parents.countP (fun k => k.path.same (.text (procedurePath ("Scaler", "Transform")))) = 2 := by
  obtain ⟨⟨kids, parents, hkids, hparents, hcount, hcount'⟩, -⟩ := links_transpose (x := ("Scaler", "Transform"))
    (y := ("Forest", "Fit")) preparedLayers_linkable preparedLayers_groupable.ready rfl rfl rfl rfl
  exact ⟨kids, parents, hkids, hparents, hcount, hcount'⟩

end TraceArtifacts
