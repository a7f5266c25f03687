import TraceArtifacts.Container.Files
import TraceArtifacts.Proofs.Calls
import TraceArtifacts.Proofs.Files
import TraceArtifacts.Proofs.Typing

/-!
# Proofs: what synonyms stand for

The file of synonyms is filled from the records of all base procedures in order, and of records with one name the last one counts
(`lookup_content`).
-/

namespace TraceArtifacts

variable {records : List Value} {name name' object object' schema schema' : String} {s : Synonym} {layers r v : Value}

namespace Container

/-! ## Gathering records -/

def Gathers (x : StateT (List β) Outcome Unit) (g : Outcome (List β)) : Prop :=
  ∀ found r, x found = .ok r ↔ ∃ more, g = .ok more ∧ r = ((), found ++ more)

namespace Gathers

variable {α β : Type}

theorem nothing : Gathers (pure () : StateT (List β) Outcome Unit) (.ok []) := by
  intro found r
  show Except.ok ((), found) = .ok r ↔ _
  simp [eq_comm]

theorem append (more : List β) : Gathers (modify (· ++ more) : StateT (List β) Outcome Unit) (.ok more) := by
  intro found r
  simp [modify, modifyGet, MonadStateOf.modifyGet, StateT.modifyGet, pure, Except.pure, eq_comm]

theorem lift_bind (x : Outcome α) {f : α → StateT (List β) Outcome Unit} {g : α → Outcome (List β)}
    (h : ∀ a, Gathers (f a) (g a)) : Gathers (liftM x >>= f) (x >>= g) := by
  intro found r
  cases x with
  | error e =>
    refine ⟨fun hx => ?_, ?_⟩
    · cases hx
    · rintro ⟨_, hx, -⟩
      cases hx
  | ok a => exact h a found r

theorem appendAll (g : Outcome (List β)) : Gathers (do
      let more ← liftM g
      modify (· ++ more) : StateT (List β) Outcome Unit) g := by
  have h := lift_bind g append
  rwa [show g >>= Except.ok = g from bind_pure g] at h

theorem ite {c : Prop} [Decidable c] {x y : StateT (List β) Outcome Unit} {g k : Outcome (List β)}
    (hx : Gathers x g) (hy : Gathers y k) : Gathers (if c then x else y) (if c then g else k) := by
  by_cases h : c
  · rw [if_pos h, if_pos h]
    exact hx
  · rw [if_neg h, if_neg h]
    exact hy

theorem forM {f : α → StateT (List β) Outcome Unit} {g : α → Outcome (List β)} (h : ∀ a, Gathers (f a) (g a))
    (xs : List α) : Gathers (xs.forM f) (do return (← xs.mapM g).flatten) := by
  induction xs with
  | nil => exact nothing
  | cons a xs ih =>
    intro found r
    rw [List.forM_eq_forM, List.forM_cons, List.mapM_cons]
    constructor
    · intro hrun
      obtain ⟨⟨⟨⟩, t⟩, hx, hrest⟩ := bind_ok.1 hrun
      obtain ⟨more, hmore, ht⟩ := (h a found _).1 hx
      obtain rfl := (Prod.mk.inj ht).2
      obtain ⟨rest, hg, rfl⟩ := (ih _ r).1 hrest
      obtain ⟨found', hfound', hflat⟩ := bind_ok.1 hg
      refine ⟨more ++ rest, ?_, by rw [List.append_assoc]⟩
      simp only [bind_ok, pure_ok]
      exact ⟨more :: found', ⟨more, hmore, found', hfound', rfl⟩, by rw [← Except.ok.inj hflat]; rfl⟩
    · rintro ⟨more, hg, rfl⟩
      simp only [bind_ok, pure_ok] at hg
      obtain ⟨_, ⟨first, hfirst, rest, hrest, rfl⟩, rfl⟩ := hg
      refine bind_ok.2 ⟨((), found ++ first), (h a found _).2 ⟨first, hfirst, rfl⟩, (ih _ _).2 ⟨rest.flatten, ?_, ?_⟩⟩
      · exact bind_ok.2 ⟨rest, hrest, rfl⟩
      · rw [List.append_assoc]
        rfl

end Gathers

def recordsOf (object : Value) : Outcome (List Value) := do
  if ← object.has "synonyms" then (← object.entry "synonyms").members else return []

def synonymRecords (layers : Value) : Outcome (List Value) := do
  let base ← layers.entry baseKey
  let found ← (← base.members).mapM fun algo => do
    let functions ← base.item algo
    if functions.isRecord then
      return (← (← functions.members).mapM fun function => do recordsOf (← functions.item function)).flatten
    else return []
  return found.flatten

theorem forEachSynonyms_gathers (layers : Value) : Gathers (forEachSynonyms layers fun synonyms => do
      let found ← synonyms.members
      modify (· ++ found)) (synonymRecords layers) := by
  refine .lift_bind _ fun base => .lift_bind _ fun algos => .forM (fun algo => ?_) algos
  refine .lift_bind _ fun functions => .ite ?_ .nothing
  refine .lift_bind _ fun names => .forM (fun function => .lift_bind _ fun object => ?_) names
  refine .lift_bind _ fun b => .ite ?_ .nothing
  exact .lift_bind _ fun synonyms => .appendAll _

theorem synonymContent_ok {content : Fields} : synonymContent layers = .ok content ↔
    ∃ records entries, synonymRecords layers = .ok records ∧ records.mapM synonymEntry = .ok entries ∧
      content = Fields.ofPairs entries.flatten := by
  have hgather := forEachSynonyms_gathers layers []
  simp only [synonymContent, bind_ok, pure_ok]
  constructor
  · rintro ⟨⟨⟨⟩, records⟩, hrecords, entries, hentries, rfl⟩
    obtain ⟨more, hmore, hr⟩ := (hgather _).1 hrecords
    obtain rfl := (Prod.mk.inj hr).2
    exact ⟨_, entries, hmore, hentries, rfl⟩
  · rintro ⟨records, entries, hrecords, hentries, rfl⟩
    exact ⟨((), records), (hgather _).2 ⟨records, hrecords, rfl⟩, entries, hentries, rfl⟩

/-! ## The last record counts -/

structure Names (r : Value) (name object schema : String) : Prop where
  synonym_eq : r.entry "synonym" = .ok (.text name)
  object_eq : r.entry "object" = .ok (.text object)
  schema_eq : r.entry "schema" = .ok (.text schema)
  object_ne : object ≠ ""
  schema_ne : schema ≠ ""

theorem Names.unique (h : Names r name object schema) (h' : Names r name' object' schema') :
    name = name' ∧ object = object' ∧ schema = schema' :=
  ⟨Value.text.inj (ok_unique h.synonym_eq h'.synonym_eq), Value.text.inj (ok_unique h.object_eq h'.object_eq),
    Value.text.inj (ok_unique h.schema_eq h'.schema_eq)⟩

def IsWhole (r : Value) : Prop :=
  ∃ object schema, r.entry "object" = .ok object ∧ r.entry "schema" = .ok schema ∧ object.isTruthy = true ∧ schema.isTruthy = true

theorem Names.isWhole (h : Names r name object schema) : IsWhole r :=
  ⟨_, _, h.object_eq, h.schema_eq, bne_iff_ne.2 h.object_ne, bne_iff_ne.2 h.schema_ne⟩

theorem synonymEntry_ok {es : List (String × Value)} (h : synonymEntry r = .ok es) :
    (es = [] ∧ ¬ IsWhole r) ∨ ∃ name object schema, Names r name object schema ∧
      es = [(name, synonymTarget (.text object) (.text schema))] := by
  simp only [synonymEntry] at h
  obtain ⟨schema, hschema, h⟩ := bind_ok.1 h
  cases hs : schema.isTruthy with
  | false =>
    rw [hs] at h
    refine .inl ⟨(Except.ok.inj h).symm, ?_⟩
    rintro ⟨_, schema', -, hschema', -, hs'⟩
    obtain rfl := ok_unique hschema hschema'
    exact absurd (hs.symm.trans hs') Bool.false_ne_true
  | true =>
    rw [hs] at h
    obtain ⟨object, hobject, h⟩ := bind_ok.1 h
    cases ho : object.isTruthy with
    | false =>
      rw [ho] at h
      refine .inl ⟨(Except.ok.inj h).symm, ?_⟩
      rintro ⟨object', _, hobject', -, ho', -⟩
      obtain rfl := ok_unique hobject hobject'
      exact absurd (ho.symm.trans ho') Bool.false_ne_true
    | true =>
      rw [ho] at h
      simp only [Value.textEntry, if_not_true, bind_ok, pure_ok, asText_ok] at h
      obtain ⟨name, ⟨_, hname, rfl⟩, schema', rfl, object', rfl, rfl⟩ := h
      exact .inr ⟨name, object', schema', ⟨hname, hobject, hschema, bne_iff_ne.1 ho, bne_iff_ne.1 hs⟩, rfl⟩

def LastNames (records : List Value) (name object schema : String) : Prop :=
  ∃ before r after, records = before ++ r :: after ∧ Names r name object schema ∧
    ∀ x ∈ after, ∀ object' schema', ¬ Names x name object' schema'

def Unnamed (records : List Value) (name : String) : Prop := ∀ x ∈ records, ∀ object schema, ¬ Names x name object schema

theorem lastNames_cons : LastNames (r :: records) name object schema ↔ LastNames records name object schema ∨
      (Names r name object schema ∧ Unnamed records name) := by
  constructor
  · rintro ⟨before, r', after, heq, hn, hafter⟩
    cases before with
    | nil =>
      obtain ⟨rfl, rfl⟩ := List.cons.inj heq
      exact .inr ⟨hn, hafter⟩
    | cons b before =>
      obtain ⟨rfl, rfl⟩ := List.cons.inj heq
      exact .inl ⟨before, r', after, rfl, hn, hafter⟩
  · rintro (⟨before, r', after, rfl, hn, hafter⟩ | ⟨hn, hnone⟩)
    · exact ⟨r :: before, r', after, rfl, hn, hafter⟩
    · exact ⟨[], r, records, rfl, hn, hnone⟩

theorem unnamed_cons (hr : ∀ object schema, ¬ Names r name object schema) (h : Unnamed records name) : Unnamed (r :: records) name := by
  intro x hx
  rcases List.mem_cons.1 hx with rfl | hx
  · exact hr
  · exact h x hx

theorem LastNames.not_unnamed (h : LastNames records name object schema) : ¬ Unnamed records name := by
  obtain ⟨before, r, after, rfl, hn, -⟩ := h
  exact fun hnone => hnone r (by simp) object schema hn

theorem lookup_entries {entries : List (List (String × Value))} (h : List.Forall₂ (fun r es => synonymEntry r = .ok es) records entries)
    (name : String) :
    (Unnamed records name ∧ entries.flatten.reverse.lookup name = none) ∨ ∃ object schema, LastNames records name object schema ∧
        entries.flatten.reverse.lookup name = some (synonymTarget (.text object) (.text schema)) := by
  induction h with
  | nil => exact .inl ⟨by simp [Unnamed], rfl⟩
  | @cons r es records entries hr _ ih =>
    have hsplit : (es :: entries).flatten.reverse.lookup name = (entries.flatten.reverse.lookup name).or (es.reverse.lookup name) := by
      rw [List.flatten_cons, List.reverse_append, List.lookup_append]
    rw [hsplit]
    obtain ⟨hnone, hlook⟩ | ⟨object, schema, hlast, hlook⟩ := ih
    · rw [hlook, Option.none_or]
      obtain ⟨rfl, hno⟩ | ⟨name', object, schema, hn, rfl⟩ := synonymEntry_ok hr
      · exact .inl ⟨unnamed_cons (fun _ _ hn => hno hn.isWhole) hnone, rfl⟩
      by_cases hname : name = name'
      · subst hname
        exact .inr ⟨object, schema, lastNames_cons.2 (.inr ⟨hn, hnone⟩), by simp⟩
      · refine .inl ⟨unnamed_cons (fun o s hn' => hname (hn'.unique hn).1) hnone, ?_⟩
        rw [List.reverse_singleton, Fields.lookup_cons_ne hname]
        rfl
    · rw [hlook]
      exact .inr ⟨object, schema, lastNames_cons.2 (.inl hlast), rfl⟩

theorem LastNames.unique (h : LastNames records name object schema) (h' : LastNames records name object' schema') :
    object = object' ∧ schema = schema' := by
  induction records with
  | nil =>
    obtain ⟨before, r, after, heq, -⟩ := h
    simp at heq
  | cons r records ih =>
    rcases lastNames_cons.1 h with h | ⟨hn, hnone⟩ <;> rcases lastNames_cons.1 h' with h' | ⟨hn', hnone'⟩
    · exact ih h h'
    · exact absurd hnone' h.not_unnamed
    · exact absurd hnone h'.not_unnamed
    · exact (hn.unique hn').2

theorem synonymTarget_inj (h : synonymTarget (.text object) (.text schema) = synonymTarget (.text object') (.text schema')) :
    object = object' ∧ schema = schema' := by
  simpa [synonymTarget] using h

theorem nodup_ofPairs (ps : Fields) : ((Fields.ofPairs ps).map Prod.fst).Nodup := by
  have h : ∀ {fs : Fields}, (fs.map Prod.fst).Nodup → ((ps.foldl (fun fs p => fs.set p.1 p.2) fs).map Prod.fst).Nodup := by
    induction ps with
    | nil => exact fun h => h
    | cons p ps ih => exact fun h => ih (Fields.nodup_keys_set _ _ h)
  exact h List.nodup_nil

end Container

/-! ## Names of synonyms -/

theorem plainValue_not_colon {t : String} (h : plainValue v = .ok t) : ':' ∉ t.toList := by
  simp only [plainValue, bind_ok, pure_ok] at h
  obtain ⟨ms, -, parts, -, rfl⟩ := h
  rw [String.toList_join]
  intro hmem
  obtain ⟨part, hpart, hmem⟩ := List.mem_flatMap.1 hmem
  have hplain := (List.mem_filter.1 hpart).2
  rw [isPlain, Bool.and_eq_true, List.all_eq_true] at hplain
  exact absurd (hplain.2 _ hmem) (by decide)

theorem synonymName_inj (hs : ':' ∉ schema.toList) (hs' : ':' ∉ schema'.toList) (ho : ':' ∉ object.toList) (ho' : ':' ∉ object'.toList)
    (h : schema ++ "::" ++ object = schema' ++ "::" ++ object') : schema = schema' ∧ object = object' := by
  -- both names are cut at their colons
  have hcut : ∀ {a b : String}, ':' ∉ a.toList → ':' ∉ b.toList → Text.cut ':' (a ++ "::" ++ b).toList = [a.toList, [], b.toList] := by
    intro a b ha hb
    have hlist : (a ++ "::" ++ b).toList = a.toList ++ ':' :: ([] ++ ':' :: b.toList) := by
      simp [String.toList_append]
    rw [hlist, Text.cut_append, Text.cut_append, Text.cut_eq_singleton_iff.2 ⟨ha, rfl⟩, Text.cut_eq_singleton_iff.2 ⟨hb, rfl⟩]
    rfl
  have heq := congrArg (fun t => Text.cut ':' t.toList) h
  simp only [hcut hs ho, hcut hs' ho', List.cons.injEq, and_true, true_and] at heq
  exact ⟨String.toList_inj.1 heq.1, String.toList_inj.1 heq.2⟩

namespace Container

def Made (s : Synonym) : Prop := ∃ name schema kind, Synonym.make name schema kind = .ok s

def IsMade (r : Value) : Prop := ∃ s, Made s ∧ r = s.toValue

theorem Names.made (hr : IsMade r) (h : Names r name object schema) :
    ∃ plainSchema plainObject, plainValue (.text schema) = .ok plainSchema ∧
      plainValue (.text object) = .ok plainObject ∧ name = plainSchema ++ "::" ++ plainObject := by
  obtain ⟨s, ⟨object', schema', kind, hmake⟩, rfl⟩ := hr
  simp only [Synonym.make, Synonym.nameFor?, bind_ok] at hmake
  obtain ⟨o, ⟨po, hpo, ps, hps, ho⟩, hmake⟩ := hmake
  split at ho
  · cases ho
    cases hmake
    obtain rfl := Except.ok.inj h.object_eq
    obtain rfl := Except.ok.inj h.schema_eq
    exact ⟨ps, po, hps, hpo, (Value.text.inj (Except.ok.inj h.synonym_eq)).symm⟩
  · cases ho
    cases hmake

theorem Names.eq_iff_of_made {r' : Value} (hr : IsMade r) (hr' : IsMade r') (h : Names r name object schema)
    (h' : Names r' name' object' schema') :
    name = name' ↔ plainValue (.text schema) = plainValue (.text schema') ∧ plainValue (.text object) = plainValue (.text object') := by
  obtain ⟨ps, po, hps, hpo, rfl⟩ := h.made hr
  obtain ⟨ps', po', hps', hpo', rfl⟩ := h'.made hr'
  rw [hps, hpo, hps', hpo']
  constructor
  · intro heq
    obtain ⟨rfl, rfl⟩ := synonymName_inj (plainValue_not_colon hps) (plainValue_not_colon hps')
      (plainValue_not_colon hpo) (plainValue_not_colon hpo') heq
    exact ⟨rfl, rfl⟩
  · rintro ⟨hs, ho⟩
    rw [Except.ok.inj hs, Except.ok.inj ho]

/-! ## The file -/

def WrittenAsIs (records : List Value) (content : Fields) : Prop :=
  ∀ r ∈ records, ∀ name object schema, Names r name object schema → content.lookup name = some (synonymTarget (.text object) (.text schema))

/-- What a file of synonyms has of some records. -/
structure Serves (records : List Value) (content : Fields) : Prop where
  keys : (content.map Prod.fst).Nodup
  named : ∀ r ∈ records, IsWhole r → ∃ name object schema, Names r name object schema
  maps : ∀ name object schema, content.lookup name = some (synonymTarget (.text object) (.text schema)) ↔
    LastNames records name object schema
  as_is : WrittenAsIs records content ↔ ∀ r ∈ records, ∀ r' ∈ records, ∀ name object schema object' schema',
    Names r name object schema → Names r' name object' schema' → object = object' ∧ schema = schema'
  made : (∀ r ∈ records, IsMade r) → (WrittenAsIs records content ↔
    ∀ r ∈ records, ∀ r' ∈ records, ∀ name name' object schema object' schema', Names r name object schema → Names r' name' object' schema' →
      plainValue (.text schema) = plainValue (.text schema') →
      plainValue (.text object) = plainValue (.text object') → object = object' ∧ schema = schema')

section Content

variable {entries : List (List (String × Value))} (h : List.Forall₂ (fun r es => synonymEntry r = .ok es) records entries)
include h

theorem lookup_content (name object schema : String) :
    (Fields.ofPairs entries.flatten).lookup name = some (synonymTarget (.text object) (.text schema)) ↔
      LastNames records name object schema := by
  rw [Fields.lookup_ofPairs]
  obtain ⟨hnone, hlook⟩ | ⟨o, s, hlast, hlook⟩ := lookup_entries h name <;> rw [hlook]
  · exact ⟨fun heq => absurd heq (by simp), fun hlast => absurd hnone hlast.not_unnamed⟩
  · refine ⟨fun heq => ?_, fun hlast' => ?_⟩
    · obtain ⟨rfl, rfl⟩ := synonymTarget_inj (Option.some.inj heq)
      exact hlast
    · obtain ⟨rfl, rfl⟩ := hlast.unique hlast'
      rfl

theorem writtenAsIs_iff : WrittenAsIs records (Fields.ofPairs entries.flatten) ↔
    ∀ r ∈ records, ∀ r' ∈ records, ∀ name object schema object' schema',
      Names r name object schema → Names r' name object' schema' → object = object' ∧ schema = schema' := by
  constructor
  · intro hown r hr r' hr' name object schema object' schema' hn hn'
    have heq := (hown r hr _ _ _ hn).symm.trans (hown r' hr' _ _ _ hn')
    exact synonymTarget_inj (Option.some.inj heq)
  · intro hsame r hr name object schema hn
    rw [Fields.lookup_ofPairs]
    obtain ⟨hnone, -⟩ | ⟨o, s, ⟨before, last, after, rfl, hlast, -⟩, hlook⟩ := lookup_entries h name
    · exact absurd hn (hnone r hr _ _)
    · obtain ⟨rfl, rfl⟩ := hsame r hr last (by simp) _ _ _ _ _ hn hlast
      exact hlook

theorem serves : Serves records (Fields.ofPairs entries.flatten) := by
  refine ⟨nodup_ofPairs _, ?_, lookup_content h, writtenAsIs_iff h, fun hmade => ?_⟩
  · intro r hr hwhole
    obtain ⟨es, -, hes⟩ := forall₂_mem_left h hr
    obtain ⟨-, hno⟩ | ⟨name, object, schema, hn, -⟩ := synonymEntry_ok hes
    · exact absurd hwhole hno
    · exact ⟨name, object, schema, hn⟩
  · rw [writtenAsIs_iff h]
    constructor
    · intro hsame r hr r' hr' name name' object schema object' schema' hn hn' hps hpo
      obtain rfl := (hn.eq_iff_of_made (hmade r hr) (hmade r' hr') hn').2 ⟨hps, hpo⟩
      exact hsame r hr r' hr' _ _ _ _ _ hn hn'
    · intro hsame r hr r' hr' name object schema object' schema' hn hn'
      obtain ⟨hps, hpo⟩ := (hn.eq_iff_of_made (hmade r hr) (hmade r' hr') hn').1 rfl
      exact hsame r hr r' hr' _ _ _ _ _ _ hn hn' hps hpo

end Content

/-! ## Processed sessions -/

theorem ofRecord_made {object kind : Value} (h : Synonym.ofRecord object kind = .ok (some s)) : Made s := by
  unfold Synonym.ofRecord at h
  split at h
  · cases h
  obtain ⟨hasName, -, h⟩ := bind_ok.1 h
  split at h
  · cases h
  obtain ⟨hasSchema, -, h⟩ := bind_ok.1 h
  split at h
  · cases h
  simp only [bind_ok, pure_ok] at h
  obtain ⟨name, -, schema, -, _, hmake, heq⟩ := h
  cases heq
  exact ⟨name, schema, kind, hmake⟩

theorem forInput_made {t : Value} (h : Synonym.forInput t = .ok (some s)) : Made s := by
  unfold Synonym.forInput at h
  obtain ⟨hasSelect, -, h⟩ := bind_ok.1 h
  split at h
  · cases h
  obtain ⟨v, -, h⟩ := bind_ok.1 h
  obtain ⟨select, -, h⟩ := bind_ok.1 h
  split at h
  · obtain ⟨_, hmake, heq⟩ := bind_ok.1 h
    obtain rfl := Option.some.inj (Except.ok.inj heq)
    exact ⟨_, _, _, hmake⟩
  · cases h

theorem storesAs_made : StoresAs (fun _ => True) fun b => ∀ s ∈ b.synonyms, Made s := by
  intro x settings trace trace' functions p b _ _ hb
  refine ⟨fun s hs => ?_, trivial⟩
  obtain ⟨_, _, _, -, -, -, hfunctions, hinputs, hsynonyms, -⟩ := buildBase_ok.1 hb
  rw [hsynonyms] at hs
  rcases List.mem_append.1 hs with hs | hs
  · obtain ⟨member, hmember⟩ := (noteAll_run (P := fun _ => True) (fun _ _ => id) hfunctions trivial).2 s hs
    exact ofRecord_made hmember
  · obtain ⟨member, hmember⟩ := (noteAll_run (P := fun _ => True) (fun _ _ => id) hinputs trivial).2 s hs
    exact forInput_made hmember

theorem mem_synonymRecords (hb : IsBaseLayer layers) (h : synonymRecords layers = .ok records) (hr : r ∈ records) :
    ∃ x o rs, procedureAt? layers x = some o ∧ recordsOf o = .ok rs ∧ r ∈ rs := by
  have hbase := hb
  obtain ⟨rows, hrows⟩ := hb
  simp only [synonymRecords, hrows.entry, members_object, bind_ok, pure_ok, Except.ok.injEq, exists_eq_left'] at h
  obtain ⟨found, hfound, rfl⟩ := h
  obtain ⟨part, hpart, hr⟩ := List.mem_flatten.1 hr
  obtain ⟨algo, halgo, hpart⟩ := forall₂_mem_right (mapM_ok.1 hfound) hpart
  obtain ⟨p, hp, rfl⟩ := List.mem_map.1 halgo
  obtain ⟨fns, hfns, hnd⟩ := hrows.row p hp
  simp only [hrows.item hp, hfns, Value.isRecord, if_true, members_object, bind_ok, pure_ok,
    Except.ok.injEq, exists_eq_left'] at hpart
  obtain ⟨lists, hlists, rfl⟩ := hpart
  obtain ⟨rs, hrs, hr⟩ := List.mem_flatten.1 hr
  obtain ⟨function, hfunction, hrs⟩ := forall₂_mem_right (mapM_ok.1 hlists) hrs
  obtain ⟨q, hq, rfl⟩ := List.mem_map.1 hfunction
  rw [Value.item_object, Fields.lookup_of_mem hnd hq] at hrs
  refine ⟨(p.1, q.1), q.2, rs, (mem_proceduresOf hbase).1 ?_, hrs, hr⟩
  rw [hrows.procedures]
  refine List.mem_flatMap.2 ⟨p, hp, ?_⟩
  rw [rowProcedures, hfns]
  exact List.mem_map.2 ⟨q, hq, rfl⟩

theorem processTrace_records_made {raiseOnError logStatements own : Bool} {s s' : Session} {u : Unit}
    (h : processTrace raiseOnError logStatements own s = .ok u s')
    (hl : s.settings.entry Setting.layers = .ok (.object [])) :
    (s.trace.isTruthy = false ∧ s' = s) ∨ ∃ layers, s'.settings.entry Setting.layers = .ok layers ∧
      ∀ records, synonymRecords layers = .ok records → ∀ r ∈ records, IsMade r := by
  refine (processTrace_stored storesAs_made h hl trivial).imp_right ?_
  rintro ⟨layers, hlayers, hbase, -, hstored⟩
  refine ⟨layers, hlayers, fun records hrecords r hr => ?_⟩
  obtain ⟨x, o, rs, ho, hrs, hr⟩ := mem_synonymRecords hbase hrecords hr
  obtain ⟨_, ⟨b, name, category, hb, rfl⟩, hs⟩ := hstored ho
  have hhas : o.has "synonyms" = .ok true := (hs.has (by decide)).trans rfl
  have hentry : o.entry "synonyms" = .ok (.list (b.synonyms.map Synonym.toValue)) := (hs.entry (by decide)).trans rfl
  simp only [recordsOf, hhas, hentry, bind_ok, Except.ok.injEq, exists_eq_left', if_true] at hrs
  cases hrs
  obtain ⟨sy, hsy, rfl⟩ := List.mem_map.1 hr
  exact ⟨sy, hb sy hsy, rfl⟩

theorem writeSynonyms_ok {path : Value} {s s' : Session} {u : Unit} (h : writeSynonyms path s = .ok u s') :
    ∃ layers content, s.settings.entry Setting.layers = .ok layers ∧ synonymContent layers = .ok content ∧
      Job.writeFile path (.text "synonyms.hdbsynonym") (Json.render (.object content)) s = .ok u s' := by
  simp only [writeSynonyms, Job.layers, Job.setting, run_parts] at h
  obtain ⟨layers, hl, content, hcontent, h⟩ := h
  exact ⟨layers, content, hl, hcontent, h⟩

/-- The file of synonyms maps each name to what the last record with that name stands for. -/
theorem writeSynonyms_serves {path : Value} {s s' : Session} {u : Unit} (h : writeSynonyms path s = .ok u s') :
    ∃ directory layers records content, path = .text directory ∧ s.settings.entry Setting.layers = .ok layers ∧
      synonymRecords layers = .ok records ∧
      s'.tree.read s'.cwd (joinPaths directory "synonyms.hdbsynonym") = .ok (Json.render (.object content)) ∧
      Serves records content := by
  obtain ⟨layers, content, hl, hcontent, hwrite⟩ := writeSynonyms_ok h
  obtain ⟨directory, file, rfl, hfile, -, hread⟩ := Job.writeFile_ok hwrite
  cases hfile
  obtain ⟨records, entries, hrecords, hentries, rfl⟩ := synonymContent_ok.1 hcontent
  exact ⟨directory, layers, records, _, rfl, hl, hrecords, hread, serves (mapM_ok.1 hentries)⟩

def readRecord (r : Value) : Outcome (String × String × String) := do
  return (← r.textEntry "synonym", ← r.textEntry "object", ← r.textEntry "schema")

theorem readRecord_names (h : readRecord r = .ok (name, object, schema)) (ho : object ≠ "") (hs : schema ≠ "") :
    Names r name object schema := by
  simp only [readRecord, Value.textEntry, bind_ok, pure_ok, asText_ok, Prod.mk.injEq] at h
  obtain ⟨_, ⟨_, hname, rfl⟩, _, ⟨_, hobject, rfl⟩, _, ⟨_, hschema, rfl⟩, rfl, rfl, rfl⟩ := h
  exact ⟨hname, hobject, hschema, ho, hs⟩

def readingSession : Session where
  settings := Settings.builtin ++ [(Setting.mergeStrategy, .int 1), (Setting.groupStrategy, .int 1),
    (Setting.layers, .object []), (Setting.entityContext, .text ""), (Setting.schema, .text "S"),
    (Setting.sourceMapping, .object [])]
  trace := .object [("RandomForestClassifier", .object
    [("F", .object [("sql", .list [.text "DO"]), ("function", .list []), ("input_tables", .list
        [tracedTable "#D" "SELECT * FROM \"A_B\".\"T\"", tracedTable "#E" "SELECT * FROM \"AB\".\"T\""]),
      ("output_tables", .list []), ("output_vars", .list [])])])]

theorem readingSession_writes : ∃ s s' layers first second, processTrace true false true readingSession = .ok () s ∧
    writeSynonyms (.text ".") s = .ok () s' ∧ s.settings.entry Setting.layers = .ok layers ∧
      synonymRecords layers = .ok [first, second] ∧ Names first "AB::T" "T" "A_B" ∧ Names second "AB::T" "T" "AB" := by
  have hrun : succeedsWith (fun _ s =>
      (do (← synonymRecords (← s.settings.entry Setting.layers)).mapM readRecord : Outcome _).toOption ==
        some [("AB::T", "T", "A_B"), ("AB::T", "T", "AB")] &&
      succeedsWith (fun _ _ => true) (writeSynonyms (.text ".") s))
      (processTrace true false true readingSession) = true := by decide +kernel
  obtain ⟨_, s, hs, htest⟩ := exists_of_succeedsWith hrun
  obtain ⟨hrecords, htest⟩ := Bool.and_eq_true_iff.1 htest
  obtain ⟨_, s', hs', -⟩ := exists_of_succeedsWith htest
  have hread := eq_ok_of_toOption (beq_iff_eq.1 hrecords)
  simp only [bind_ok] at hread
  obtain ⟨layers, hl, records, hrecs, hread⟩ := hread
  -- the records are read one by one
  obtain ⟨first, _, hfirst, hrest, rfl⟩ := List.forall₂_cons_right_iff.1 (mapM_ok.1 hread)
  obtain ⟨second, _, hsecond, hnil, rfl⟩ := List.forall₂_cons_right_iff.1 hrest
  obtain rfl := List.forall₂_nil_right_iff.1 hnil
  exact ⟨s, s', layers, first, second, hs, hs', hl, hrecs, readRecord_names hfirst (by decide) (by decide),
    readRecord_names hsecond (by decide) (by decide)⟩

/-- In the sample, the file has the second record only. -/
theorem writeSynonyms_serves_sample : ∃ s s' layers records content,
    processTrace true false true readingSession = .ok () s ∧ writeSynonyms (.text ".") s = .ok () s' ∧
      s.settings.entry Setting.layers = .ok layers ∧ synonymRecords layers = .ok records ∧ records.length = 2 ∧
      (∀ r ∈ records, IsMade r) ∧ Serves records content := by
  obtain ⟨s, s', layers, first, second, hs, hs', hl, hrecords, -⟩ := readingSession_writes
  obtain ⟨hempty, -⟩ | ⟨_, hl', hmade⟩ := processTrace_records_made hs rfl
  · exact absurd hempty (by decide)
  obtain ⟨_, _, records, content, -, hl'', hrecords', -, hserves⟩ := writeSynonyms_serves hs'
  obtain rfl := ok_unique hl hl'
  obtain rfl := Except.ok.inj (hl.symm.trans hl'')
  obtain rfl := ok_unique hrecords hrecords'
  exact ⟨s, s', layers, _, content, hs, hs', hl, hrecords, rfl, hmade _ hrecords, hserves⟩

/-- In the sample, the name of a table leads to a table in another schema. -/
theorem synonymContent_redirects : ∃ s layers records content r, processTrace true false true readingSession = .ok () s ∧
    s.settings.entry Setting.layers = .ok layers ∧ synonymRecords layers = .ok records ∧
      synonymContent layers = .ok content ∧ r ∈ records ∧ Names r "AB::T" "T" "A_B" ∧
      content.lookup "AB::T" = some (synonymTarget (.text "T") (.text "AB")) := by
  obtain ⟨s, s', layers, first, second, hs, hs', hl, hrecords, hfirst, hsecond⟩ := readingSession_writes
  obtain ⟨l, content, hl', hcontent, -⟩ := writeSynonyms_ok hs'
  obtain rfl := ok_unique hl hl'
  obtain ⟨records, entries, hrecords', hentries, rfl⟩ := synonymContent_ok.1 hcontent
  obtain rfl := ok_unique hrecords hrecords'
  refine ⟨s, layers, _, _, first, hs, hl, hrecords, hcontent, by simp, hfirst, ?_⟩
  exact (lookup_content (mapM_ok.1 hentries) _ _ _).2 ⟨[first], second, [], rfl, hsecond, by simp⟩

end Container

end TraceArtifacts
