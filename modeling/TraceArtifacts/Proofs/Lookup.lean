import TraceArtifacts.Proofs.Paths

/-!
# Proofs: cutting, joining and following paths

A path and its parts stand for each other as long as no part has a slash. Following a path reaches what its keys lead to; where a
key is missing, the answer depends on what the keys before it have led to and on the default.
-/

namespace TraceArtifacts

variable {default u v w : Value} {k : String} {before keys rest : List String}

/-! ## Parts of a path -/

theorem toList_joinPath (parts : List String) : (joinPath parts).toList = ['/'].intercalate (parts.map String.toList) :=
  String.toList_intercalate

theorem map_toList_pathParts (p : String) : (pathParts p).map String.toList = p.toList.splitOn '/' := by
  simp [pathParts, cutText, Text.cut_eq_splitOn, Function.comp_def]

theorem joinPath_pathParts (p : String) : joinPath (pathParts p) = p := by
  rw [← String.toList_inj, toList_joinPath, map_toList_pathParts, List.intercalate_splitOn]

theorem slash_not_mem_of_mem_pathParts {p part : String} (h : part ∈ pathParts p) : '/' ∉ part.toList := by
  obtain ⟨cs, hcs, rfl⟩ := List.mem_map.1 h
  rw [String.toList_ofList]
  exact Text.sep_not_mem_of_mem_cut hcs

theorem pathParts_joinPath {parts : List String} (hne : parts ≠ []) (h : ∀ part ∈ parts, '/' ∉ part.toList) :
    pathParts (joinPath parts) = parts := by
  have hsplit := @List.splitOn_intercalate _ (parts.map String.toList) _ _ '/' (by simpa using h) (by simpa using hne)
  rw [← toList_joinPath, ← map_toList_pathParts] at hsplit
  exact List.map_injective_iff.2 (fun _ _ => String.toList_inj.1) hsplit

/-- Joining undoes cutting, and cutting undoes joining exactly if no part has a slash. So the path of a procedure gives back its three
parts, and different procedures have different paths. -/
theorem paths_stand_for_parts : (∀ p, joinPath (pathParts p) = p) ∧
    (∀ parts, parts ≠ [] → (pathParts (joinPath parts) = parts ↔ ∀ part ∈ parts, '/' ∉ part.toList)) ∧
    (∀ x : ProcedureName, SlashFree x → ∃ path, basePath (.text x.1) (.text x.2) = .ok path ∧ pathParts path = [baseKey, x.1, x.2]) ∧
    ∀ x y : ProcedureName, SlashFree x → SlashFree y → x ≠ y →
      basePath (.text x.1) (.text x.2) ≠ basePath (.text y.1) (.text y.2) := by
  refine ⟨joinPath_pathParts, fun parts hne => ⟨fun h part hpart => ?_, pathParts_joinPath hne⟩, fun x hx => ⟨_, basePath_text x, ?_⟩, ?_⟩
  · exact slash_not_mem_of_mem_pathParts (h ▸ hpart)
  · exact threeParts_ok.1 (threeParts_procedurePath.2 ⟨hx, rfl⟩)
  · intro x y hx _ hne h
    exact hne (procedurePath_injective hx (Except.ok.inj h))

/-! ## Following keys -/

def keyPlace (keys : List String) : Place := keys.map .key

/-- The first keys lead to a value that has nothing under the next one. -/
structure Misses (root : Value) (keys before : List String) (v : Value) (k : String) (rest : List String) : Prop where
  keys_eq : keys = before ++ k :: rest
  reached : root.at? (keyPlace before) = some v
  missing : v.at? (keyPlace [k]) = none

theorem at?_keyPlace_cons (h : v.at? (keyPlace (k :: keys)) = some w) :
    ∃ fs u, v = .object fs ∧ fs.lookup k = some u ∧ u.at? (keyPlace keys) = some w := by
  cases v with
  | object fs =>
    obtain ⟨u, hu, hw⟩ := Option.bind_eq_some_iff.1 h
    exact ⟨fs, u, rfl, hu, hw⟩
  | _ => cases h

theorem exists_misses (h : v.at? (keyPlace keys) = none) : ∃ before u k rest, Misses v keys before u k rest := by
  induction keys generalizing v with
  | nil => cases h
  | cons k keys ih =>
    cases hk : v.at? (keyPlace [k]) with
    | none => exact ⟨[], v, k, keys, rfl, rfl, hk⟩
    | some w =>
      rw [keyPlace, List.map_cons, Value.at?_cons, show v.at? [.key k] = some w from hk] at h
      obtain ⟨before, u, k', rest, rfl, hu, hmiss⟩ := ih h
      refine ⟨k :: before, u, k', rest, rfl, ?_, hmiss⟩
      rw [keyPlace, List.map_cons, Value.at?_cons, show v.at? [.key k] = some w from hk]
      exact hu

theorem Misses.at?_eq_none {root : Value} (h : Misses root keys before v k rest) : root.at? (keyPlace keys) = none := by
  rw [h.keys_eq, keyPlace, List.map_append, Value.at?_append, show root.at? (before.map .key) = some v from h.reached]
  show v.at? (.key k :: keyPlace rest) = none
  rw [Value.at?_cons, show v.at? [.key k] = none from h.missing]
  rfl

/-! ## Walking -/

theorem walk_of_not_truthy (h : ¬ v.isTruthy) (keys : List String) : Value.walk default keys v = .ok v := by
  cases keys with
  | nil => rfl
  | cons k keys => rw [Value.walk, if_neg h]

theorem isTruthy_of_lookup {fs : Fields} (h : fs.lookup k = some u) : (Value.object fs).isTruthy = true := by
  cases fs with
  | nil => cases h
  | cons f fs => rfl

/-- A record that has a key is not empty, so a walk goes on through all records that have the next key. -/
theorem walk_append (h : v.at? (keyPlace before) = some u) : Value.walk default (before ++ keys) v = Value.walk default keys u := by
  induction before generalizing v with
  | nil =>
    cases h
    rfl
  | cons k before ih =>
    obtain ⟨fs, w, rfl, hw, hu⟩ := at?_keyPlace_cons h
    rw [List.cons_append, Value.walk, if_pos (isTruthy_of_lookup hw), ← ih hu]
    show Value.walk default (before ++ keys) ((fs.lookup k).getD default) = _
    rw [hw]
    rfl

theorem lookup_eq_none {fs : Fields} (h : (Value.object fs).at? (keyPlace [k]) = none) : fs.lookup k = none := by
  cases hk : fs.lookup k with
  | none => rfl
  | some u => exact absurd (h.symm.trans (Value.at?_key k [] fs)) (by rw [hk]; exact Option.some_ne_none u ∘ Eq.symm)

theorem walk_record {fs : Fields} (hfs : (Value.object fs).isTruthy) (h : (Value.object fs).at? (keyPlace [k]) = none) :
    Value.walk default (k :: rest) (.object fs) = Value.walk default rest default := by
  rw [Value.walk, if_pos hfs]
  show Value.walk default rest ((fs.lookup k).getD default) = _
  rw [lookup_eq_none h]
  rfl

theorem lookupPath_cons {fs : Fields} {path : String} (h : pathParts path = k :: keys) :
    (Value.object fs).lookupPath (.text path) default = Value.walk default keys ((fs.lookup k).getD default) := by
  have hcut : cutText '/' path = k :: keys := h
  simp only [Value.lookupPath, Value.asTextReceiver, bind, Except.bind, hcut, Fields.get?]

theorem lookupPath_of_reached {fs : Fields} {path : String} (h : (Value.object fs).at? (keyPlace (pathParts path)) = some w) :
    (Value.object fs).lookupPath (.text path) default = .ok w := by
  obtain ⟨k, keys, hkeys⟩ := List.exists_cons_of_ne_nil (pathParts_ne_nil path)
  rw [hkeys] at h
  obtain ⟨_, u, hfs, hu, hw⟩ := at?_keyPlace_cons h
  cases hfs
  rw [lookupPath_cons hkeys, hu, ← List.append_nil keys]
  exact walk_append hw

theorem lookupPath_of_misses {fs : Fields} {path : String} (h : Misses (.object fs) (pathParts path) before v k rest) :
    (Value.object fs).lookupPath (.text path) default =
      if before = [] then Value.walk default rest default else Value.walk default (k :: rest) v := by
  obtain ⟨hkeys, hv, hmiss⟩ := h
  cases before with
  | nil =>
    cases hv
    rw [lookupPath_cons hkeys, lookup_eq_none hmiss, if_pos rfl]
    rfl
  | cons k₀ before =>
    obtain ⟨_, u, hfs, hu, hw⟩ := at?_keyPlace_cons hv
    cases hfs
    rw [lookupPath_cons hkeys, hu, if_neg (List.cons_ne_nil _ _)]
    exact walk_append hw

/-- What a walk gives from a value that has nothing under the next key: the value itself if it is empty or false, what the default gives
for the rest if it is a record, and what its members give if it is a sequence. -/
theorem walk_of_missing_ok (h : v.at? (keyPlace [k]) = none) : Value.walk default (k :: rest) v = .ok w ↔
    ¬ v.isTruthy ∧ w = v ∨ (v.isTruthy ∧ ∃ fs, v = .object fs) ∧ Value.walk default rest default = .ok w ∨
      ∃ vs, v = .list vs ∧ vs ≠ [] ∧ (v.stepFrom k default >>= Value.walk default rest) = .ok w := by
  by_cases ht : v.isTruthy
  · cases v with
    | object fs => simp [walk_record ht h, ht]
    | list vs =>
      have hvs : vs ≠ [] := by simpa [Value.isTruthy] using ht
      rw [Value.walk, if_pos ht]
      simp [ht, hvs]
    | _ => simp [Value.walk, ht, Value.stepFrom, Value.stepInto, bind, Except.bind]
  · rw [walk_of_not_truthy ht]
    have hlist : ¬ ∃ vs, v = .list vs ∧ vs ≠ [] ∧ (v.stepFrom k default >>= Value.walk default rest) = .ok w := by
      rintro ⟨vs, rfl, hvs, -⟩
      exact ht (by simpa [Value.isTruthy] using hvs)
    simp only [hlist, or_false, ht, not_false_eq_true, true_and, Bool.false_eq_true, false_and, Except.ok.injEq]
    exact eq_comm

/-- A key that is missing in `v`, where the keys before it have led to, makes the default come out. -/
def YieldsDefault (default : Value) (before : List String) (v : Value) (k : String) (rest : List String) : Prop :=
  (before = [] ∨ v.isTruthy ∧ ∃ fs, v = .object fs) ∧ Value.walk default rest default = .ok default ∨
    before ≠ [] ∧ (¬ v.isTruthy ∧ default = v ∨
      ∃ vs, v = .list vs ∧ vs ≠ [] ∧ (v.stepFrom k default >>= Value.walk default rest) = .ok default)

theorem lookupPath_default_iff {fs : Fields} {path : String} (h : Misses (.object fs) (pathParts path) before v k rest) :
    (Value.object fs).lookupPath (.text path) default = .ok default ↔ YieldsDefault default before v k rest := by
  rw [lookupPath_of_misses h, YieldsDefault]
  by_cases hbefore : before = []
  · simp [hbefore]
  · rw [if_neg hbefore, walk_of_missing_ok h.missing]
    simp only [hbefore, false_or, ne_eq, not_false_eq_true, true_and]
    exact or_left_comm

/-- A look-up gives what the keys lead to, or the default if a key is missing, exactly if the first missing key is missing in the record
itself or in another record that is not empty and the default gives itself for the rest of the keys, as it does if there are none or it is
empty or false. Otherwise the value that lacks the key has to be the default by chance, or a sequence that gives it. -/
theorem lookupPath_eq_iff (fs : Fields) (path : String) (default : Value) :
    ((Value.object fs).lookupPath (.text path) default = .ok (((Value.object fs).at? (keyPlace (pathParts path))).getD default) ↔
      ∀ before v k rest, Misses (.object fs) (pathParts path) before v k rest → YieldsDefault default before v k rest) ∧
    ∀ rest, (rest = [] ∨ ¬ default.isTruthy) → Value.walk default rest default = .ok default := by
  refine ⟨⟨fun h before v k rest hmiss => ?_, fun h => ?_⟩, ?_⟩
  · rw [hmiss.at?_eq_none] at h
    exact (lookupPath_default_iff hmiss).1 h
  · cases hreached : (Value.object fs).at? (keyPlace (pathParts path)) with
    | some w => exact lookupPath_of_reached hreached
    | none =>
      obtain ⟨before, v, k, rest, hmiss⟩ := exists_misses hreached
      exact (lookupPath_default_iff hmiss).2 (h before v k rest hmiss)
  · rintro rest (rfl | hfalse)
    · rfl
    · exact walk_of_not_truthy hfalse rest

/-- An empty record on the way is given back in place of the default. -/
theorem lookupPath_stops_at_empty :
    (Value.object [("a", .object [])]).at? (keyPlace (pathParts "a/b")) = none ∧
    (Value.object [("a", .object [])]).lookupPath (.text "a/b") (.text "d") = .ok (.object []) := by
  have hparts : pathParts "a/b" = ["a", "b"] := by decide
  refine ⟨by rw [hparts]; rfl, ?_⟩
  rw [lookupPath_cons hparts]
  rfl

end TraceArtifacts
