import TraceArtifacts.Place
import TraceArtifacts.Proofs.Steps

/-!
# Proofs: look-up and change of records

What is under a key after a change, for the entries of a record, and what is at a place after a change, for values.
-/

namespace TraceArtifacts

variable {fs : Fields} {p : Place} {k k' key : String} {f : Value → Value} {u v w x : Value}

/-! ## Entries -/

namespace Fields

theorem lookup_cons_ne (h : k ≠ k') (v : Value) (fs : Fields) : ((k', v) :: fs).lookup k = fs.lookup k := by
  rw [List.lookup_cons, beq_eq_false_iff_ne.2 h]

theorem lookup_set (key k : String) (v : Value) (fs : Fields) :
    (Fields.set key v fs).lookup k = if k = key then some v else fs.lookup k := by
  induction fs with
  | nil => by_cases h : k = key <;> simp [Fields.set, h]
  | cons f fs ih =>
    obtain ⟨k', w⟩ := f
    by_cases hk' : k' = key
    · subst hk'
      by_cases h : k = k'
      · simp [Fields.set, h]
      · simp [Fields.set, h, lookup_cons_ne h]
    · by_cases h : k = k'
      · subst h
        simp [Fields.set, hk']
      · simp [Fields.set, hk', lookup_cons_ne h, ih]

theorem lookup_set_self (key : String) (v : Value) (fs : Fields) : (Fields.set key v fs).lookup key = some v := by
  rw [lookup_set, if_pos rfl]

theorem lookup_set_ne (h : k ≠ key) (v : Value) (fs : Fields) : (Fields.set key v fs).lookup k = fs.lookup k := by
  rw [lookup_set, if_neg h]

theorem set_set (key : String) (v w : Value) (fs : Fields) : Fields.set key v (Fields.set key w fs) = Fields.set key v fs := by
  induction fs with
  | nil => simp [Fields.set]
  | cons f fs ih =>
    obtain ⟨k', u⟩ := f
    by_cases hk' : k' = key <;> simp [Fields.set, hk', ih]

theorem set_eq_self (h : fs.lookup key = some v) : fs.set key v = fs := by
  induction fs with
  | nil => cases h
  | cons p rest ih =>
    obtain ⟨k, w⟩ := p
    by_cases hk : k = key
    · subst hk
      rw [List.lookup_cons_self] at h
      rw [set, if_pos rfl, Option.some.inj h]
    · rw [lookup_cons_ne (Ne.symm hk)] at h
      rw [set, if_neg hk, ih h]

theorem lookup_foldl_set (k : String) (ps fs : Fields) :
    (ps.foldl (fun fs p => fs.set p.1 p.2) fs).lookup k = (ps.reverse.lookup k).or (fs.lookup k) := by
  induction ps generalizing fs with
  | nil => rfl
  | cons p ps ih =>
    rw [List.foldl_cons, ih, List.reverse_cons, List.lookup_append, lookup_set, Option.or_assoc]
    congr 1
    by_cases hk : k = p.1
    · rw [if_pos hk, List.lookup_cons, beq_iff_eq.2 hk]
      rfl
    · rw [if_neg hk, List.lookup_cons, beq_eq_false_iff_ne.2 hk]
      rfl

theorem lookup_ofPairs (k : String) (ps : Fields) : (Fields.ofPairs ps).lookup k = ps.reverse.lookup k := by
  rw [ofPairs, lookup_foldl_set]
  exact Option.or_none

theorem mem_set {p : String × Value} (h : p ∈ Fields.set key v fs) : p = (key, v) ∨ p ∈ fs := by
  induction fs with
  | nil => exact .inl (List.mem_singleton.1 h)
  | cons f fs ih =>
    obtain ⟨k', w⟩ := f
    by_cases hk' : k' = key
    · subst hk'
      simp only [Fields.set, if_true] at h
      exact (List.mem_cons.1 h).imp id (.tail _)
    · simp only [Fields.set, hk', if_false] at h
      rcases List.mem_cons.1 h with rfl | h
      · exact .inr (.head _)
      · exact (ih h).imp id (.tail _)

theorem nodup_keys_set (key : String) (v : Value) (h : (fs.map Prod.fst).Nodup) : ((Fields.set key v fs).map Prod.fst).Nodup := by
  induction fs with
  | nil => simp [Fields.set]
  | cons f fs ih =>
    obtain ⟨k', w⟩ := f
    rw [List.map_cons, List.nodup_cons] at h
    by_cases hk' : k' = key
    · simp only [Fields.set, hk', if_true, List.map_cons, List.nodup_cons]
      rw [← hk']
      exact h
    · simp only [Fields.set, hk', if_false, List.map_cons, List.nodup_cons]
      refine ⟨fun hmem => ?_, ih h.2⟩
      obtain ⟨p, hp, hpk⟩ := List.mem_map.1 hmem
      rcases mem_set hp with rfl | hp
      · exact hk' hpk.symm
      · exact h.1 (List.mem_map.2 ⟨p, hp, hpk⟩)

theorem lookup_modify (key k : String) (f : Value → Value) (fs : Fields) : (Fields.modify key f fs).lookup k =
      if k = key then (fs.lookup k).map f else fs.lookup k := by
  induction fs with
  | nil => simp [Fields.modify]
  | cons p fs ih =>
    obtain ⟨k', w⟩ := p
    by_cases hk' : k' = key
    · subst hk'
      by_cases h : k = k'
      · simp [Fields.modify, h]
      · simp [Fields.modify, h, lookup_cons_ne h]
    · by_cases h : k = k'
      · subst h
        simp [Fields.modify, hk']
      · simp [Fields.modify, hk', lookup_cons_ne h, ih]

theorem keys_modify (key : String) (f : Value → Value) (fs : Fields) : (Fields.modify key f fs).map Prod.fst = fs.map Prod.fst := by
  induction fs with
  | nil => rfl
  | cons p fs ih =>
    obtain ⟨k', w⟩ := p
    by_cases hk' : k' = key <;> simp [Fields.modify, hk', ih]

theorem mem_modify {p : String × Value} (h : p ∈ Fields.modify key f fs) : p ∈ fs ∨ ∃ v, (key, v) ∈ fs ∧ p = (key, f v) := by
  induction fs with
  | nil => exact .inl h
  | cons q fs ih =>
    obtain ⟨k', w⟩ := q
    by_cases hk' : k' = key
    · subst hk'
      simp only [Fields.modify, if_true] at h
      rcases List.mem_cons.1 h with rfl | h
      · exact .inr ⟨w, .head _, rfl⟩
      · exact .inl (.tail _ h)
    · simp only [Fields.modify, hk', if_false] at h
      rcases List.mem_cons.1 h with rfl | h
      · exact .inl (.head _)
      · rcases ih h with h | ⟨v, hv, rfl⟩
        · exact .inl (.tail _ h)
        · exact .inr ⟨v, List.mem_cons_of_mem _ hv, rfl⟩

theorem modify_eq_self (h : ∀ v, fs.lookup key = some v → f v = v) : Fields.modify key f fs = fs := by
  induction fs with
  | nil => rfl
  | cons p fs ih =>
    obtain ⟨k', w⟩ := p
    by_cases hk' : k' = key
    · subst hk'
      simp [Fields.modify, h w (by simp)]
    · have hne : ¬ key = k' := fun e => hk' e.symm
      simp only [Fields.modify, hk', if_false]
      rw [ih (fun v hv => h v (by rw [lookup_cons_ne hne]; exact hv))]

theorem modify_congr {g : Value → Value} (h : ∀ v, fs.lookup key = some v → f v = g v) :
    Fields.modify key f fs = Fields.modify key g fs := by
  induction fs with
  | nil => rfl
  | cons p fs ih =>
    obtain ⟨k', w⟩ := p
    by_cases hk' : k' = key
    · subst hk'
      simp [Fields.modify, h w (by simp)]
    · have hne : ¬ key = k' := fun e => hk' e.symm
      simp only [Fields.modify, hk', if_false]
      rw [ih (fun v hv => h v (by rw [lookup_cons_ne hne]; exact hv))]

theorem modify_modify (key : String) (f g : Value → Value) (fs : Fields) :
    Fields.modify key f (Fields.modify key g fs) = Fields.modify key (f ∘ g) fs := by
  induction fs with
  | nil => rfl
  | cons p fs ih =>
    obtain ⟨k', w⟩ := p
    by_cases hk' : k' = key <;> simp [Fields.modify, hk', ih]

theorem mem_of_lookup (h : fs.lookup k = some v) : (k, v) ∈ fs := by
  obtain ⟨l₁, l₂, rfl, -⟩ := List.lookup_eq_some_iff.1 h
  simp

theorem lookup_of_mem (hnd : (fs.map Prod.fst).Nodup) (h : (k, v) ∈ fs) : fs.lookup k = some v := by
  induction fs with
  | nil => simp at h
  | cons p fs ih =>
    obtain ⟨k', w⟩ := p
    simp only [List.map_cons, List.nodup_cons] at hnd
    rcases List.mem_cons.1 h with e | h'
    · cases e
      simp
    · have hne : k ≠ k' := by
        rintro rfl
        exact hnd.1 (List.mem_map.2 ⟨(k, v), h', rfl⟩)
      rw [lookup_cons_ne hne]
      exact ih hnd.2 h'

theorem any_key_eq (fs : Fields) (k : String) : (fs.any fun f => f.1 == k) = (fs.lookup k).isSome := by
  induction fs with
  | nil => rfl
  | cons p fs ih =>
    obtain ⟨k', w⟩ := p
    by_cases h : k = k'
    · subst h
      simp
    · rw [List.any_cons, ih, lookup_cons_ne h, beq_eq_false_iff_ne.2 (Ne.symm h), Bool.false_or]

end Fields

/-! ## Records -/

namespace Value

theorem entry_object (fs : Fields) (k : String) : (object fs).entry k = need k (fs.lookup k) := by
  simp only [Value.entry]
  cases fs.lookup k <;> rfl

theorem has_object (fs : Fields) (k : String) : (object fs).has k = .ok (fs.lookup k).isSome := by
  rw [← Fields.any_key_eq]
  rfl

theorem item_object (fs : Fields) (k : String) : (object fs).item (.text k) = need k (fs.lookup k) := by
  cases h : fs.lookup k <;> simp [Value.item, asKey, keyText?, h, need, bind, Except.bind, pure, Except.pure, throw, throwThe,
      MonadExceptOf.throw]

theorem get_object (fs : Fields) (k : String) (d : Value) : (object fs).get k d = (fs.lookup k).getD d := rfl

theorem entryOr_object (fs : Fields) (k : String) (d : Value) : (object fs).entryOr k d = .ok ((fs.lookup k).getD d) := by
  unfold Value.entryOr
  rw [has_object, entry_object]
  cases h : fs.lookup k <;> simp [need, bind, Except.bind, pure, Except.pure]

theorem isTruthy_of_members {ms : List Value} (h : v.members = .ok ms) : v.isTruthy = !ms.isEmpty := by
  cases v with
  | list xs =>
    cases h
    rfl
  | object fs =>
    cases h
    cases fs <;> rfl
  | text s =>
    cases h
    rw [Bool.eq_iff_iff]
    simp [isTruthy]
  | _ => cases h

theorem need_ok {o : Option Value} : need k o = .ok v ↔ o = some v := by
  cases o <;> simp [need]

theorem entry_ok : v.entry k = .ok w ↔ ∃ fs, v = object fs ∧ fs.lookup k = some w := by
  constructor
  · intro h
    cases v with
    | object fs => exact ⟨fs, rfl, need_ok.1 (by rw [← entry_object]; exact h)⟩
    | _ => simp [Value.entry] at h
  · rintro ⟨fs, rfl, h⟩
    rw [entry_object, h]
    rfl

theorem has_of_entry (h : v.entry k = .ok w) : v.has k = .ok true := by
  obtain ⟨fs, rfl, hlook⟩ := entry_ok.1 h
  rw [has_object, hlook]
  rfl

theorem get_of_entry (h : v.entry k = .ok w) (d : Value) : v.get k d = w := by
  obtain ⟨fs, rfl, hw⟩ := entry_ok.1 h
  rw [get_object, hw]
  rfl

def SameBut (keys : List String) (v w : Value) : Prop :=
  ∃ fs gs, v = object fs ∧ w = object gs ∧ ∀ k ∉ keys, gs.lookup k = fs.lookup k

namespace SameBut

variable {keys : List String}

theorem refl (keys : List String) (fs : Fields) : SameBut keys (object fs) (object fs) := ⟨fs, fs, rfl, rfl, fun _ _ => rfl⟩

theorem symm (h : SameBut keys v w) : SameBut keys w v := by
  obtain ⟨fs, gs, rfl, rfl, h⟩ := h
  exact ⟨gs, fs, rfl, rfl, fun k hk => (h k hk).symm⟩

theorem trans (h1 : SameBut keys u v) (h2 : SameBut keys v w) : SameBut keys u w := by
  obtain ⟨fs, gs, rfl, rfl, h1⟩ := h1
  obtain ⟨gs', hs, e, rfl, h2⟩ := h2
  cases e
  exact ⟨fs, hs, rfl, rfl, fun k hk => (h2 k hk).trans (h1 k hk)⟩

theorem mono {keys' : List String} (h : SameBut keys v w) (hsub : keys ⊆ keys') : SameBut keys' v w := by
  obtain ⟨fs, gs, rfl, rfl, h⟩ := h
  exact ⟨fs, gs, rfl, rfl, fun k hk => h k (fun hk' => hk (hsub hk'))⟩

theorem entry (h : SameBut keys v w) (hk : k ∉ keys) : w.entry k = v.entry k := by
  obtain ⟨fs, gs, rfl, rfl, h⟩ := h
  rw [entry_object, entry_object, h k hk]

theorem has (h : SameBut keys v w) (hk : k ∉ keys) : w.has k = v.has k := by
  obtain ⟨fs, gs, rfl, rfl, h⟩ := h
  rw [has_object, has_object, h k hk]

theorem get (h : SameBut keys v w) (hk : k ∉ keys) (d : Value) : w.get k d = v.get k d := by
  obtain ⟨fs, gs, rfl, rfl, h⟩ := h
  rw [get_object, get_object, h k hk]

theorem entryOr (h : SameBut keys v w) (hk : k ∉ keys) (d : Value) : w.entryOr k d = v.entryOr k d := by
  obtain ⟨fs, gs, rfl, rfl, h⟩ := h
  rw [entryOr_object, entryOr_object, h k hk]

end SameBut

theorem sameBut_setEntry (h : v.setEntry k x = .ok w) : SameBut [k] v w := by
  cases v with
  | object fs =>
    obtain rfl : object (Fields.set k x fs) = w := by simpa [setEntry] using h
    exact ⟨fs, _, rfl, rfl, fun k' hk' => Fields.lookup_set_ne (by simpa using hk') x fs⟩
  | _ => simp [setEntry] at h

end Value

/-! ## Places -/

def Place.Apart : Place → Place → Prop
  | s :: p, t :: q => s ≠ t ∨ Place.Apart p q
  | _, _ => False

theorem Place.Apart.symm : ∀ {p q : Place}, p.Apart q → q.Apart p
  | _ :: _, _ :: _, h => h.imp Ne.symm Place.Apart.symm
  | [], _, h => h.elim
  | _ :: _, [], h => h.elim

theorem Place.Apart.append : ∀ {p q : Place}, p.Apart q → ∀ r : Place, Place.Apart (p ++ r) q
  | _ :: _, _ :: _, h, r => h.imp id fun h' => Place.Apart.append h' r
  | [], _, h, _ => h.elim
  | _ :: _, [], h, _ => h.elim

namespace Value

theorem at?_key (k : String) (rest : Place) (fs : Fields) : at? (.key k :: rest) (object fs) = (fs.lookup k).bind (at? rest) := rfl

theorem at?_append (p q : Place) (v : Value) : at? (p ++ q) v = (at? p v).bind (at? q) := by
  induction p generalizing v with
  | nil => rfl
  | cons s p ih =>
    cases s with
    | key k =>
      cases v with
      | object fs =>
        show (fs.lookup k).bind (at? (p ++ q)) = ((fs.lookup k).bind (at? p)).bind (at? q)
        rw [Option.bind_assoc, funext ih]
      | _ => rfl
    | position i =>
      cases v with
      | list xs =>
        show (xs[i]?).bind (at? (p ++ q)) = ((xs[i]?).bind (at? p)).bind (at? q)
        rw [Option.bind_assoc, funext ih]
      | _ => rfl

theorem at?_modifyAt_append (f : Value → Value) (p q : Place) (v : Value) :
    at? p (modifyAt f (p ++ q) v) = (at? p v).map (modifyAt f q) := by
  induction p generalizing v with
  | nil => rfl
  | cons s p ih =>
    cases s with
    | key k =>
      cases v with
      | object fs =>
        simp only [List.cons_append, modifyAt, at?, Fields.lookup_modify, if_true]
        cases fs.lookup k <;> simp [ih]
      | _ => rfl
    | position i =>
      cases v with
      | list xs =>
        simp only [List.cons_append, modifyAt, at?, List.getElem?_modify_eq]
        cases xs[i]? <;> simp [ih]
      | _ => rfl

theorem at?_modifyAt_self (f : Value → Value) (p : Place) (v : Value) : at? p (modifyAt f p v) = (at? p v).map f := by
  have h := at?_modifyAt_append f p [] v
  rw [List.append_nil] at h
  exact h

theorem at?_modifyAt_of_apart (f : Value → Value) {q : Place} (h : p.Apart q) (v : Value) : at? q (modifyAt f p v) = at? q v := by
  induction p generalizing q v with
  | nil => exact absurd h (by simp [Place.Apart])
  | cons s p ih =>
    cases q with
    | nil => exact absurd h (by simp [Place.Apart])
    | cons t q =>
      cases s with
      | key k =>
        cases v with
        | object fs =>
          cases t with
          | key k' =>
            simp only [modifyAt, at?, Fields.lookup_modify]
            by_cases hk : k' = k
            · have h' : Place.Apart p q := by
                rcases h with h | h
                · exact absurd (by rw [hk]) h
                · exact h
              rw [if_pos hk]
              cases fs.lookup k' <;> simp [ih h']
            · rw [if_neg hk]
          | position i => rfl
        | _ => rfl
      | position i =>
        cases v with
        | list xs =>
          cases t with
          | position j =>
            simp only [modifyAt, at?]
            by_cases hi : i = j
            · have h' : Place.Apart p q := by
                rcases h with h | h
                · exact absurd (by rw [hi]) h
                · exact h
              subst hi
              rw [List.getElem?_modify_eq]
              cases xs[i]? <;> simp [ih h']
            · rw [List.getElem?_modify_ne _ _ hi]
          | key k => rfl
        | _ => rfl

theorem modifyAt_eq_self (h : ∀ w, at? p v = some w → f w = w) : modifyAt f p v = v := by
  induction p generalizing v with
  | nil => exact h v rfl
  | cons s p ih =>
    cases s with
    | key k =>
      cases v with
      | object fs =>
        simp only [modifyAt]
        rw [Fields.modify_eq_self]
        intro w hw
        exact ih (fun u hu => h u (by simp [at?, hw, hu]))
      | _ => rfl
    | position i =>
      cases v with
      | list xs =>
        simp only [modifyAt]
        congr 1
        apply List.ext_getElem?
        intro j
        by_cases hi : i = j
        · subst hi
          rw [List.getElem?_modify_eq]
          cases hx : xs[i]? with
          | none => rfl
          | some w =>
            have hw : modifyAt f p w = w := ih (fun u hu => h u (by simp [at?, hx, hu]))
            simp [hw]
        · rw [List.getElem?_modify_ne _ _ hi]
      | _ => rfl

theorem putAt_self (h : at? p v = some w) : v.putAt p w = v := modifyAt_eq_self (fun u hu => by rw [h] at hu; exact Option.some.inj hu)

theorem at?_putAt_self (w : Value) (h : at? p v = some u) : at? p (v.putAt p w) = some w := by
  rw [putAt, at?_modifyAt_self, h]
  rfl

theorem sameBut_putAt (fs : Fields) (k : String) (v : Value) : (object fs).SameBut [k] ((object fs).putAt [.key k] v) := by
  refine ⟨fs, _, rfl, rfl, fun k' hk' => ?_⟩
  rw [Fields.lookup_modify, if_neg (by simpa using hk')]

theorem putAt_putAt (p : Place) (v a b : Value) : (v.putAt p a).putAt p b = v.putAt p b := by
  induction p generalizing v with
  | nil => rfl
  | cons s p ih =>
    cases s with
    | key k =>
      cases v with
      | object fs =>
        refine congrArg object ((Fields.modify_modify ..).trans (Fields.modify_congr fun u _ => ih u))
      | _ => rfl
    | position i =>
      cases v with
      | list xs =>
        refine congrArg list ((List.modify_modify_eq ..).trans (congrArg (xs.modify i) (funext fun u => ih u)))
      | _ => rfl

theorem putAt_append (h : at? p v = some w) (q : Place) (x : Value) : v.putAt (p ++ q) x = v.putAt p (w.putAt q x) := by
  induction p generalizing v with
  | nil =>
    cases h
    rfl
  | cons s p ih =>
    cases s with
    | key k =>
      cases v with
      | object fs =>
        refine congrArg object (Fields.modify_congr fun u hu => ih ?_)
        simpa only [at?, hu, Option.bind_some] using h
      | _ => rfl
    | position i =>
      cases v with
      | list xs =>
        refine congrArg list (List.ext_getElem? fun j => ?_)
        by_cases hi : i = j
        · subst hi
          rw [List.getElem?_modify_eq, List.getElem?_modify_eq]
          cases hx : xs[i]? with
          | none => rfl
          | some u => exact congrArg some (ih (by simpa only [at?, hx, Option.bind_some] using h))
        · rw [List.getElem?_modify_ne _ _ hi, List.getElem?_modify_ne _ _ hi]
      | _ => rfl

theorem within_ok {c : Change α} {v' : Value} {a : α} (h : Change.within p c v = .ok a v') :
    ∃ w w', at? p v = some w ∧ c w = .ok a w' ∧ v' = v.putAt p w' := by
  unfold Change.within at h
  cases hw : at? p v with
  | none =>
    rw [hw] at h
    cases h
  | some w =>
    cases hc : c w with
    | error e w' =>
      simp only [hw, hc] at h
      cases h
    | ok b w' =>
      simp only [hw, hc] at h
      cases h
      exact ⟨w, w', rfl, hc, rfl⟩

theorem entry_eq_ok_iff : v.entry k = .ok w ↔ at? [.key k] v = some w := by
  rw [entry_ok]
  constructor
  · rintro ⟨fs, rfl, h⟩
    simp [at?, h]
  · intro h
    cases v with
    | object fs => exact ⟨fs, rfl, by simpa [at?] using h⟩
    | _ => simp [at?] at h

theorem at?_setEntry_self (h : v.setEntry k x = .ok w) : at? [.key k] w = some x := by
  cases v with
  | object fs =>
    obtain rfl : object (Fields.set k x fs) = w := by simpa [setEntry] using h
    rw [at?_key, Fields.lookup_set_self]
    rfl
  | _ => simp [setEntry] at h

theorem at?_setEntry_ne (h : v.setEntry k x = .ok w) (hne : k' ≠ k) : at? [.key k'] w = at? [.key k'] v := by
  cases v with
  | object fs =>
    obtain rfl : object (Fields.set k x fs) = w := by simpa [setEntry] using h
    rw [at?_key, at?_key, Fields.lookup_set_ne hne]
  | _ => simp [setEntry] at h

theorem item_eq_ok_iff : v.item (.text k) = .ok w ↔ at? [.key k] v = some w := by
  cases v with
  | object fs => rw [item_object, ← entry_object, entry_eq_ok_iff]
  | list xs => simp [Value.item, placeAmong, position?, at?, bind, Except.bind]
  | text s => simp [Value.item, placeAmong, position?, at?, bind, Except.bind]
  | _ => simp [Value.item, at?]

theorem at?_cons (s : PlaceStep) (p : Place) (v : Value) : at? (s :: p) v = (at? [s] v).bind (at? p) := at?_append [s] p v

end Value

theorem modify_append (xs : List α) (y : α) (ys : List α) (f : α → α) : (xs ++ y :: ys).modify xs.length f = xs ++ f y :: ys := by
  induction xs with
  | nil => rfl
  | cons x xs ih => exact congrArg (x :: ·) ih

end TraceArtifacts
