import TraceArtifacts.Proofs.Layers

/-!
# Proofs: the paths of procedures and the words in their names

A path is cut at every slash, so the path of a procedure leads back to it exactly if there is no slash in its algorithm and its
function.
-/

namespace TraceArtifacts

variable {s t : List Char} {x : ProcedureName}

/-! ## Cutting -/

namespace Text

theorem cut_eq_splitOn (sep : Char) (s : List Char) : cut sep s = s.splitOn sep := by
  induction s with
  | nil => rw [cut, List.splitOn_nil]
  | cons c s ih =>
    obtain ⟨part, parts, hparts⟩ := List.exists_cons_of_ne_nil (List.splitOn_ne_nil sep s)
    rw [cut, List.splitOn_cons_eq_if_modifyHead, ih, hparts]
    by_cases hc : c = sep <;> simp [hc]

theorem cut_ne_nil (sep : Char) (s : List Char) : cut sep s ≠ [] := by
  rw [cut_eq_splitOn]
  exact List.splitOn_ne_nil sep s

theorem cut_append (sep : Char) (s t : List Char) : cut sep (s ++ sep :: t) = cut sep s ++ cut sep t := by
  simp only [cut_eq_splitOn, List.splitOn_append_cons_self]

theorem sep_not_mem_of_mem_cut {sep : Char} {p : List Char} (hp : p ∈ cut sep s) : sep ∉ p := by
  induction s generalizing p with
  | nil =>
    obtain rfl := List.mem_singleton.1 hp
    exact List.not_mem_nil
  | cons c s ih =>
    obtain ⟨part, parts, hparts⟩ := List.exists_cons_of_ne_nil (cut_ne_nil sep s)
    rw [hparts] at ih
    by_cases hc : c = sep
    · rw [cut, if_pos hc, hparts] at hp
      obtain rfl | hp := List.mem_cons.1 hp
      · exact List.not_mem_nil
      · exact ih hp
    · rw [cut, if_neg hc, hparts] at hp
      obtain rfl | hp := List.mem_cons.1 hp
      · exact fun hmem => (List.mem_cons.1 hmem).elim (Ne.symm hc) (ih (.head _))
      · exact ih (.tail _ hp)

theorem cut_eq_singleton_iff {sep : Char} {p : List Char} : cut sep s = [p] ↔ sep ∉ s ∧ p = s := by
  constructor
  · intro h
    have hp : sep ∉ p := sep_not_mem_of_mem_cut (by rw [h]; exact .head _)
    obtain rfl : [sep].intercalate [p] = s := by rw [← h, cut_eq_splitOn, List.intercalate_splitOn]
    simpa using hp
  · rintro ⟨h, rfl⟩
    rw [cut_eq_splitOn, List.splitOn_eq_singleton h]

theorem replace_nil (x : Char) (s : List Char) : replace [x] [] s = s.filter (· ≠ x) := by
  show replaceFrom [x] [] 0 s = _
  induction s with
  | nil => rfl
  | cons c s ih =>
    rw [replaceFrom]
    by_cases hc : x = c
    · subst hc
      simp [List.isPrefixOf, ih]
    · simp [List.isPrefixOf, hc, Ne.symm hc, ih]

/-! ## Words -/

theorem occurs_cons (t : List Char) (c : Char) (s : List Char) : occurs t (c :: s) = (t.isPrefixOf (c :: s) || occurs t s) := by
  rw [occurs, indexOf?]
  cases t.isPrefixOf (c :: s) with
  | true => rfl
  | false => simp [occurs]

theorem occurs_of_isPrefixOf (h : t.isPrefixOf s = true) : occurs t s = true := by
  cases s with
  | nil =>
    obtain rfl : t = [] := by simpa using h
    rfl
  | cons c s => rw [occurs_cons, h, Bool.true_or]

theorem occurs_append_left (h : occurs t s = true) (r : List Char) : occurs t (r ++ s) = true := by
  induction r with
  | nil => exact h
  | cons c r ih => rw [List.cons_append, occurs_cons, ih, Bool.or_true]

theorem occurs_iff_isInfix : occurs t s = true ↔ t <:+: s := by
  induction s with
  | nil => cases t <;> simp [occurs, indexOf?]
  | cons c s ih => rw [occurs_cons, Bool.or_eq_true, ih, List.isPrefixOf_iff_prefix, List.infix_cons_iff]

theorem isPrefixOf_append_cons {c : Char} (s : List Char) : ∀ {t : List Char} (r : List Char), c ∉ t →
    t.isPrefixOf (r ++ c :: s) = t.isPrefixOf r := by
  intro t
  induction t with
  | nil => simp
  | cons a t ih =>
    intro r hc
    obtain ⟨hne, hnot⟩ := List.ne_and_not_mem_of_not_mem_cons hc
    cases r with
    | nil => simp [List.isPrefixOf, Ne.symm hne]
    | cons b r => simp only [List.cons_append, List.isPrefixOf, ih r hnot]

theorem occurs_append_cons {c : Char} (ht : t ≠ []) (hc : c ∉ t) (r s : List Char) :
    occurs t (r ++ c :: s) = (occurs t r || occurs t s) := by
  induction r with
  | nil =>
    have hstart := isPrefixOf_append_cons s [] hc
    cases t with
    | nil => exact absurd rfl ht
    | cons a t =>
      rw [List.nil_append] at hstart
      rw [List.nil_append, occurs_cons, hstart]
      rfl
  | cons b r ih =>
    rw [List.cons_append, occurs_cons, occurs_cons, ih, ← List.cons_append, isPrefixOf_append_cons s (b :: r) hc, Bool.or_assoc]

section Lower

variable {w : List Char} (hw : ∀ c ∈ w, c ≠ 'Σ' ∧ lowerChar c = [c])
include hw

theorem isPrefixOf_lowerFrom (before : List Char) (h : w.isPrefixOf s = true) : w.isPrefixOf (lowerFrom before s) = true := by
  induction w generalizing s before with
  | nil => rfl
  | cons a w ih =>
    cases s with
    | nil => simp at h
    | cons c s =>
      obtain ⟨ha, hrest⟩ := Bool.and_eq_true_iff.1 h
      obtain rfl := beq_iff_eq.1 ha
      obtain ⟨hsigma, hsmall⟩ := hw a (.head _)
      rw [lowerFrom, lowerBetween, if_neg hsigma, hsmall, List.singleton_append, List.isPrefixOf, beq_self_eq_true, Bool.true_and]
      exact ih (fun c hc => hw c (.tail _ hc)) _ hrest

theorem occurs_lowerFrom (before : List Char) (h : occurs w s = true) : occurs w (lowerFrom before s) = true := by
  induction s generalizing before with
  | nil => exact h
  | cons c s ih =>
    rw [occurs_cons] at h
    rcases Bool.or_eq_true_iff.1 h with h | h
    · exact occurs_of_isPrefixOf (isPrefixOf_lowerFrom hw before h)
    · exact occurs_append_left (ih _ h) _

end Lower

end Text

/-! ## Paths -/

def procedurePath (x : ProcedureName) : String := joinPath [baseKey, x.1, x.2]

def SlashFree (x : ProcedureName) : Prop := '/' ∉ x.1.toList ∧ '/' ∉ x.2.toList

theorem basePath_text (x : ProcedureName) : basePath (.text x.1) (.text x.2) = .ok (procedurePath x) := rfl

theorem toList_procedurePath (x : ProcedureName) :
    (procedurePath x).toList = baseKey.toList ++ '/' :: (x.1.toList ++ '/' :: x.2.toList) := by
  simp [procedurePath, joinPath]

theorem pathParts_procedurePath (x : ProcedureName) : pathParts (procedurePath x) = baseKey :: (pathParts x.1 ++ pathParts x.2) := by
  rw [pathParts, cutText, toList_procedurePath, Text.cut_append, Text.cut_append]
  have hb : Text.cut '/' baseKey.toList = [baseKey.toList] := by decide
  rw [hb]
  simp [pathParts, cutText, String.ofList_toList]

theorem threeParts_ok {parts : List String} {t : String × String × String} : threeParts parts = .ok t ↔ parts = [t.1, t.2.1, t.2.2] := by
  constructor
  · intro h
    unfold threeParts at h
    split at h
    · cases h
      rfl
    · split at h <;> cases h
  · rintro rfl
    rfl

theorem pathParts_eq_singleton_iff {s p : String} : pathParts s = [p] ↔ '/' ∉ s.toList ∧ p = s := by
  simp only [pathParts, cutText, List.map_eq_singleton_iff, Text.cut_eq_singleton_iff]
  constructor
  · rintro ⟨t, ⟨h, rfl⟩, rfl⟩
    exact ⟨h, String.ofList_toList⟩
  · rintro ⟨h, rfl⟩
    exact ⟨_, ⟨h, rfl⟩, String.ofList_toList⟩

theorem pathParts_ne_nil (s : String) : pathParts s ≠ [] := by
  simp [pathParts, cutText, Text.cut_ne_nil]

theorem threeParts_procedurePath {t : String × String × String} :
    threeParts (pathParts (procedurePath x)) = .ok t ↔ SlashFree x ∧ t = (baseKey, x) := by
  rw [pathParts_procedurePath, threeParts_ok]
  constructor
  · intro h
    obtain ⟨hb, hpq⟩ := List.cons.inj h
    -- each half has a part at least, so each has exactly one
    obtain ⟨y, p, hp⟩ := List.exists_cons_of_ne_nil (pathParts_ne_nil x.1)
    obtain ⟨z, q, hq⟩ := List.exists_cons_of_ne_nil (pathParts_ne_nil x.2)
    have hlen := congrArg List.length hpq
    simp only [hp, hq, List.length_append, List.length_cons, List.length_nil] at hlen
    obtain rfl : p = [] := List.eq_nil_of_length_eq_zero (by omega)
    obtain rfl : q = [] := List.eq_nil_of_length_eq_zero (by omega)
    obtain ⟨h1, rfl⟩ := pathParts_eq_singleton_iff.1 hp
    obtain ⟨h2, rfl⟩ := pathParts_eq_singleton_iff.1 hq
    rw [hp, hq] at hpq
    simp only [List.cons_append, List.nil_append, List.cons.injEq, and_true] at hpq
    exact ⟨⟨h1, h2⟩, Prod.ext hb.symm (Prod.ext hpq.1.symm hpq.2.symm)⟩
  · rintro ⟨⟨h1, h2⟩, rfl⟩
    rw [pathParts_eq_singleton_iff.2 ⟨h1, rfl⟩, pathParts_eq_singleton_iff.2 ⟨h2, rfl⟩]
    rfl

theorem ofPath_procedurePath {a : Address} : Address.ofPath (.text (procedurePath x)) = .ok a ↔ SlashFree x ∧ a = addressOf x := by
  simp only [Address.ofPath, Value.asTextReceiver, bind_ok, Except.ok.injEq, exists_eq_left',
    threeParts_procedurePath, pure_ok]
  constructor
  · rintro ⟨t, ⟨h, rfl⟩, rfl⟩
    exact ⟨h, rfl⟩
  · rintro ⟨h, rfl⟩
    exact ⟨_, ⟨h, rfl⟩, rfl⟩

theorem atPath_procedurePath {layers : Value} {o : Value} :
    layers.atPath (.text (procedurePath x)) = .ok o ↔ SlashFree x ∧ procedureAt? layers x = some o := by
  simp only [Value.atPath, Value.asTextReceiver, bind_ok, Except.ok.injEq, exists_eq_left',
    threeParts_procedurePath, ← address_object_ok]
  simp only [Address.object, addressOf, bind_ok, Value.entry_eq_ok_iff, Value.item_eq_ok_iff]
  constructor
  · rintro ⟨t, ⟨h, rfl⟩, ho⟩
    exact ⟨h, ho⟩
  · rintro ⟨h, ho⟩
    exact ⟨_, ⟨h, rfl⟩, ho⟩

theorem procedurePath_injective {y : ProcedureName} (hx : SlashFree x) (h : procedurePath x = procedurePath y) : x = y := by
  have hy := threeParts_procedurePath.2 ⟨hx, rfl⟩
  rw [h] at hy
  exact (Prod.mk.inj (threeParts_procedurePath.1 hy).2).2

def nameOfPath (path : String) : ProcedureName :=
  match threeParts (pathParts path) with
  | .ok (_, x) => x
  | .error _ => ("", "")

theorem nameOfPath_procedurePath (hx : SlashFree x) : nameOfPath (procedurePath x) = x := by
  rw [nameOfPath, threeParts_procedurePath.2 ⟨hx, rfl⟩]

end TraceArtifacts
