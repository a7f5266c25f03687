import TraceArtifacts.Container.Local
import TraceArtifacts.Proofs.Ways

/-!
# Proofs: removing a directory and laying out a new one

In a tree whose entries all lie in directories, a directory is removed with all that lies below it, and nothing else is.
-/

namespace TraceArtifacts

variable {t tree u : FileTree} {here loc p q : Location} {k : Nat} {s : Session} {n : String}

namespace FileTree

/-! ## Trees -/

/-- A name that something in a directory can have. -/
structure IsName (n : String) : Prop where
  ne : n ≠ "" ∧ n ≠ "." ∧ n ≠ ".."
  slash : '/' ∉ n.toList
  sound : isSound n = true

instance (n : String) : Decidable (IsName n) :=
  decidable_of_iff ((n ≠ "" ∧ n ≠ "." ∧ n ≠ "..") ∧ '/' ∉ n.toList ∧ isSound n = true)
    ⟨fun h => ⟨h.1, h.2.1, h.2.2⟩, fun h => ⟨h.ne, h.slash, h.sound⟩⟩

structure WellFormed (t : FileTree) : Prop where
  named : ∀ e ∈ t.entries, e.1 ≠ [] ∧ ∀ n ∈ e.1, IsName n
  parent : ∀ e ∈ t.entries, t.find? e.1.dropLast = some .directory

theorem find?_cases (t : FileTree) (q : Location) :
    t.find? q = none ∨ t.find? q = some .directory ∨ ∃ content, t.find? q = some (.file content) := by
  cases t.find? q with
  | none => exact .inl rfl
  | some node =>
    cases node with
    | directory => exact .inr (.inl rfl)
    | file content => exact .inr (.inr ⟨content, rfl⟩)

theorem mem_of_find? {n : Node} (hq : q ≠ []) (h : t.find? q = some n) : (q, n) ∈ t.entries := by
  rw [find?, if_neg (by simpa using hq)] at h
  obtain ⟨before, after, heq, -⟩ := List.lookup_eq_some_iff.1 h
  rw [heq]
  exact List.mem_append_right _ List.mem_cons_self

theorem find?_of_mem {e : Location × Node} (h : e ∈ t.entries) : (t.find? e.1).isSome = true := by
  by_cases he : e.1 = []
  · rw [he]
    rfl
  · rw [find?, if_neg (by simpa using he)]
    cases hfind : t.entries.lookup e.1 with
    | some n => rfl
    | none =>
      have hne := List.lookup_eq_none_iff.1 hfind e h
      simp at hne

theorem WellFormed.names (ht : t.WellFormed) {n : Node} (h : t.find? q = some n) : ∀ m ∈ q, IsName m := by
  by_cases hq : q = []
  · rw [hq]
    exact nofun
  · exact (ht.named _ (mem_of_find? hq h)).2

theorem WellFormed.above (ht : t.WellFormed) : ∀ {q : Location} {n : Node}, t.find? q = some n → ∀ {r : Location}, r <+: q →
    r ≠ q → t.find? r = some .directory := by
  intro q
  induction hlen : q.length generalizing q with
  | zero =>
    intro n h r hr hne
    obtain rfl := List.eq_nil_of_length_eq_zero hlen
    exact absurd (List.prefix_nil.1 hr) hne
  | succ m ih =>
    intro n h r hr hne
    have hq : q ≠ [] := by
      rintro rfl
      cases hlen
    have hparent := ht.parent _ (mem_of_find? hq h)
    by_cases hdrop : r = q.dropLast
    · rwa [hdrop]
    · refine ih (q := q.dropLast) (by simp [hlen]) hparent ?_ hdrop
      refine List.prefix_of_prefix_length_le hr (List.dropLast_prefix q) ?_
      have hle := hr.length_le
      rw [List.length_dropLast]
      have : r.length ≠ q.length := fun heq => hne (hr.eq_of_length heq)
      omega

theorem isPrefixOf_eq_false : p.isPrefixOf q = false ↔ ¬ p <+: q := by
  rw [← List.isPrefixOf_iff_prefix, Bool.not_eq_true]

theorem find?_remove (hp : p ≠ []) (t : FileTree) (q : Location) : (t.remove p).find? q = if p <+: q then none else t.find? q := by
  by_cases hq : q = []
  · subst hq
    rw [if_neg (fun h => hp (List.prefix_nil.1 h))]
    rfl
  · have hempty : q.isEmpty = false := by simpa using hq
    unfold find? remove
    rw [hempty, if_neg Bool.false_ne_true, if_neg Bool.false_ne_true, lookup_filter fun r => !p.isPrefixOf r]
    by_cases hpre : p <+: q
    · rw [if_pos hpre, if_neg (by simpa using hpre)]
    · rw [if_neg hpre, if_pos (by rw [isPrefixOf_eq_false.2 hpre]; rfl)]

theorem WellFormed.remove (ht : t.WellFormed) (hp : p ≠ []) : (t.remove p).WellFormed := by
  have hsub : ∀ e ∈ (t.remove p).entries, e ∈ t.entries ∧ ¬ p <+: e.1 := by
    intro e he
    have he := List.mem_filter.1 he
    exact ⟨he.1, isPrefixOf_eq_false.1 (by simpa using he.2)⟩
  refine ⟨fun e he => ht.named e (hsub e he).1, fun e he => ?_⟩
  obtain ⟨hmem, hpre⟩ := hsub e he
  rw [find?_remove hp, if_neg fun h => hpre (h.trans (List.dropLast_prefix e.1))]
  exact ht.parent e hmem

theorem WellFormed.remove_self (ht : t.WellFormed) (h : t.find? p = none) : t.remove p = t := by
  have hall : t.entries.filter (fun e => !p.isPrefixOf e.1) = t.entries := by
    refine List.filter_eq_self.2 fun e he => ?_
    cases hpre : p.isPrefixOf e.1 with
    | false => rfl
    | true =>
      have hpre : p <+: e.1 := List.isPrefixOf_iff_prefix.1 hpre
      obtain ⟨n, hn⟩ := Option.isSome_iff_exists.1 (find?_of_mem he)
      by_cases heq : p = e.1
      · rw [← heq, h] at hn
        cases hn
      · rw [ht.above hn hpre heq] at h
        cases h
  rw [FileTree.remove, hall]

/-- How far there are directories on a way, if there is nothing else on it. -/
theorem WellFormed.reaches (ht : t.WellFormed) {names : List String} (hhere : t.find? here = some .directory)
    (hway : ∀ i ≤ names.length, t.find? (here ++ names.take i) = none ∨ t.find? (here ++ names.take i) = some .directory) :
    ∃ k, Reaches t here names k := by
  have hupto : ∀ m ≤ names.length, ∃ k ≤ m, (∀ i ≤ k, t.find? (here ++ names.take i) = some .directory) ∧
      ∀ i, k < i → i ≤ m → t.find? (here ++ names.take i) = none := by
    intro m
    induction m with
    | zero =>
      intro _
      refine ⟨0, Nat.le_refl 0, fun i hi => ?_, fun i hi hle => by omega⟩
      obtain rfl := Nat.le_zero.1 hi
      rwa [List.take_zero, List.append_nil]
    | succ m ih =>
      intro hm
      rcases hway (m + 1) hm with hnone | hdir
      · obtain ⟨k, hk, hthere, hmissing⟩ := ih (by omega)
        refine ⟨k, by omega, hthere, fun i hi hle => ?_⟩
        by_cases him : i = m + 1
        · rwa [him]
        · exact hmissing i hi (by omega)
      · refine ⟨m + 1, Nat.le_refl _, fun i hi => ?_, fun i hi hle => by omega⟩
        by_cases him : i = m + 1
        · rwa [him]
        · refine ht.above hdir ((List.prefix_append_right_inj here).2 ?_) fun heq => him ?_
          · exact List.take_prefix_take_left (by omega)
          · have hlen := congrArg List.length heq
            rw [List.length_append, List.length_append, List.length_take, List.length_take] at hlen
            omega
  obtain ⟨k, hk, hthere, hmissing⟩ := hupto names.length (Nat.le_refl _)
  refine ⟨k, hk, hthere, hmissing, fun n hn => ?_⟩
  exact (ht.names (hthere k (Nat.le_refl k)) n (List.mem_append_right _ hn)).sound

/-! ## Removing a directory -/

theorem IsName.relative (h : IsName n) : isAbsolutePath n = false := isAbsolutePath_of_no_slash h.slash

theorem IsName.pathNames (h : IsName n) : pathNames n = [n] := by
  rw [pathNames_eq, namesIn_of_no_slash h.slash, String.ofList_toList, if_neg]
  rintro (heq | heq)
  · exact h.ne.1 heq
  · exact h.ne.2.1 heq

structure LeadsTo (t : FileTree) (cwd : Location) (p : String) : Prop where
  ne : p ≠ ""
  up : ".." ∉ pathNames p
  way : Reaches t (startOf cwd p) (pathNames p) (pathNames p).length

section Clearing

variable {cwd : Location} {p : String}

theorem LeadsTo.nodeAt (h : LeadsTo t cwd p) : t.nodeAt cwd p = .ok .directory := by
  obtain ⟨hlocate, hfind⟩ := h.way.locate h.ne h.up
  rw [FileTree.nodeAt, hlocate]
  simp only [bind, Except.bind, hfind]
  rfl

theorem LeadsTo.list (h : LeadsTo t cwd p) : t.list cwd p = .ok (t.childNames (placeOf cwd p)) := by
  rw [FileTree.list, h.nodeAt]
  simp only [bind, Except.bind, (h.way.locate h.ne h.up).1]
  rfl

theorem LeadsTo.remove (h : LeadsTo t cwd p) {more : Location} (hmore : more ≠ []) : LeadsTo (t.remove (placeOf cwd p ++ more)) cwd p := by
  refine ⟨h.ne, h.up, Nat.le_refl _, fun i hi => ?_, fun i hi hle => by omega, h.way.sound⟩
  rw [find?_remove (by simp [hmore]), if_neg, h.way.there i hi]
  intro hpre
  have hlen := hpre.length_le
  have hpos := List.length_pos_iff.2 hmore
  rw [placeOf, List.length_append, List.length_append, List.length_append, List.length_take] at hlen
  omega

theorem LeadsTo.removeAt (h : LeadsTo t cwd p) (ht : t.WellFormed) (hn : IsName n) :
    t.removeAt cwd (joinPaths p n) = t.remove (placeOf cwd p ++ [n]) := by
  have hnames : pathNames (joinPaths p n) = pathNames p ++ [n] := by rw [pathNames_joinPaths p hn.relative, hn.pathNames]
  have hstart : startOf cwd (joinPaths p n) = startOf cwd p := by
    rw [startOf, startOf, isAbsolutePath_joinPaths p hn.relative]
  have hup : ".." ∉ pathNames (joinPaths p n) := by
    rw [hnames, List.mem_append, List.mem_singleton, not_or]
    exact ⟨h.up, Ne.symm hn.ne.2.2⟩
  have hlocate : t.locate cwd (joinPaths p n) = .ok (placeOf cwd p ++ [n]) := by
    have hplace : placeOf cwd (joinPaths p n) = placeOf cwd p ++ [n] := by
      rw [placeOf_joinPaths cwd p hn.relative, hn.pathNames]
    rw [← hplace]
    refine locate_of_way (joinPaths_ne_empty p hn.relative hn.ne.1) hup (fun i hi => ?_) fun m hm => ?_
    · rw [hnames, List.length_append] at hi
      have hi : i ≤ (pathNames p).length := Nat.lt_succ_iff.1 hi
      rw [hnames, hstart, List.take_append_of_le_length hi]
      exact h.way.there i hi
    · rw [hnames] at hm
      rcases List.mem_append.1 hm with hm | hm
      · exact h.way.sound m (by rwa [List.take_length])
      · rw [List.mem_singleton.1 hm]
        exact hn.sound
  have hasks : asksDirectory (joinPaths p n) = false := by
    rw [asksDirectory, baseName_joinPaths p hn.slash]
    simp [hn.ne.1, hn.ne.2.1]
  rw [FileTree.removeAt, exists?, nodeAt?, FileTree.nodeAt, hlocate]
  simp only [bind, Except.bind]
  rcases find?_cases t (placeOf cwd p ++ [n]) with hfind | hfind | ⟨content, hfind⟩
  · simp only [hfind]
    exact (ht.remove_self hfind).symm
  · simp only [hfind]
    rfl
  · simp only [hfind, hasks]
    rfl

def removeChildren (loc : Location) (ns : List String) (t : FileTree) : FileTree :=
  ns.foldl (fun t n => t.remove (loc ++ [n])) t

theorem LeadsTo.removeChildren (h : LeadsTo t cwd p) (ht : t.WellFormed) {ns : List String} (hns : ∀ n ∈ ns, IsName n) :
    ns.foldl (fun t n => t.removeAt cwd (joinPaths p n)) t = removeChildren (placeOf cwd p) ns t ∧
      LeadsTo (FileTree.removeChildren (placeOf cwd p) ns t) cwd p := by
  induction ns generalizing t with
  | nil => exact ⟨rfl, h⟩
  | cons n ns ih =>
    obtain ⟨hn, hns⟩ := List.forall_mem_cons.1 hns
    rw [List.foldl_cons, h.removeAt ht hn]
    exact ih (h.remove (List.cons_ne_nil n [])) (ht.remove (by simp)) hns

theorem removeChildren_entries (loc : Location) (ns : List String) (t : FileTree) :
    (removeChildren loc ns t).entries = t.entries.filter fun e => ns.all fun n => !(loc ++ [n]).isPrefixOf e.1 := by
  induction ns generalizing t with
  | nil => exact (List.filter_eq_self.2 fun _ _ => rfl).symm
  | cons n ns ih =>
    rw [removeChildren, List.foldl_cons]
    refine (ih _).trans ?_
    rw [FileTree.remove, List.filter_filter]
    refine List.filter_congr fun e _ => ?_
    rw [List.all_cons, Bool.and_comm]

theorem mem_childNames (t : FileTree) : n ∈ t.childNames loc ↔ ∃ e ∈ t.entries, e.1 = loc ++ [n] := by
  rw [childNames, sortTexts, List.mem_mergeSort, List.mem_filterMap]
  refine exists_congr fun e => and_congr_right fun _ => ?_
  constructor
  · intro h
    split at h
    · rename_i hcond
      rw [Bool.and_eq_true, beq_iff_eq, List.isPrefixOf_iff_prefix] at hcond
      obtain ⟨⟨rest, hrest⟩, hlen⟩ := hcond
      rw [← hrest, List.length_append] at hlen
      obtain ⟨m, rfl⟩ := List.length_eq_one_iff.1 (Nat.add_left_cancel hlen)
      rw [← hrest, List.getLast?_append] at h
      rw [← hrest]
      simpa using h
    · cases h
  · intro h
    rw [h, if_pos]
    · simp
    · simp [List.isPrefixOf_iff_prefix]

theorem WellFormed.childNames (ht : t.WellFormed) : ∀ n ∈ t.childNames loc, IsName n := by
  intro n hn
  obtain ⟨e, he, heq⟩ := (mem_childNames t).1 hn
  refine (ht.named e he).2 n ?_
  rw [heq]
  exact List.mem_append_right _ (List.mem_singleton_self n)

theorem removeChildren_all (loc : Location) {ns : List String} (t : FileTree) (hall : ∀ n ∈ t.childNames loc, n ∈ ns) :
    (removeChildren loc ns t).childNames loc = [] ∧ (removeChildren loc ns t).remove loc = t.remove loc := by
  have hentries := removeChildren_entries loc ns t
  constructor
  · refine List.eq_nil_iff_forall_not_mem.2 fun n hn => ?_
    obtain ⟨e, he, heq⟩ := (mem_childNames _).1 hn
    rw [hentries, List.mem_filter] at he
    have hchild : n ∈ ns := hall n ((mem_childNames t).2 ⟨e, he.1, heq⟩)
    have hkept := List.all_eq_true.1 he.2 n hchild
    rw [heq, List.isPrefixOf_iff_prefix.2 (List.prefix_refl _)] at hkept
    cases hkept
  · rw [FileTree.remove, FileTree.remove, hentries, List.filter_filter]
    congr 1
    refine List.filter_congr fun e _ => ?_
    cases hpre : loc.isPrefixOf e.1 with
    | true => rfl
    | false =>
      rw [Bool.not_false, Bool.true_and, List.all_eq_true]
      intro n hn
      have hno : ¬ loc ++ [n] <+: e.1 := fun h => isPrefixOf_eq_false.1 hpre ((List.prefix_append loc [n]).trans h)
      rw [isPrefixOf_eq_false.2 hno]
      rfl

theorem LeadsTo.clear (h : LeadsTo t cwd p) (ht : t.WellFormed) :
    FileTree.clear cwd p t = .ok (FileTree.removeChildren (placeOf cwd p) (t.childNames (placeOf cwd p)) t) := by
  rw [FileTree.clear, h.list]
  exact congrArg Except.ok (h.removeChildren ht ht.childNames).1

theorem lastName_eq (h : baseName p ≠ "") : lastName p = baseName p := by
  obtain ⟨k, hp, -⟩ := withoutLastSlashes_eq p
  cases k with
  | zero =>
    rw [List.replicate_zero, List.append_nil] at hp
    rw [lastName, ← String.toList_inj.1 hp]
  | succ k =>
    rw [List.replicate_succ', ← List.append_assoc] at hp
    rw [baseName_of_last_slash hp List.not_mem_nil] at h
    exact absurd rfl h

theorem LeadsTo.removeEmpty (h : LeadsTo t cwd p) (hname : baseName p ≠ "" ∧ baseName p ≠ "." ∧ baseName p ≠ "..")
    (hempty : t.childNames (placeOf cwd p) = []) : FileTree.removeEmpty cwd p t = .ok (t.remove (placeOf cwd p)) := by
  have hdirectory : t.directoryAt cwd p = .ok (placeOf cwd p) := by
    rw [directoryAt, h.nodeAt]
    exact (h.way.locate h.ne h.up).1
  have hdot : (baseName p == ".") = false := beq_eq_false_iff_ne.2 hname.2.1
  have hup : (baseName p == "..") = false := beq_eq_false_iff_ne.2 hname.2.2
  rw [FileTree.removeEmpty, hdirectory, lastName_eq hname.1]
  simp only [bind, Except.bind, hdot, hup, hempty]
  rfl

end Clearing

end FileTree

open FileTree

theorem Job.removeDirectory_eq {p : String} (ht : s.tree.WellFormed) (hp : p ≠ "") (hup : ".." ∉ pathNames p)
    (hname : baseName p ≠ "" ∧ baseName p ≠ "." ∧ baseName p ≠ "..") (hk : Reaches s.tree (startOf s.cwd p) (pathNames p) k) :
    Job.removeDirectory (.text p) s = .ok () { s with tree := s.tree.remove (placeOf s.cwd p) } := by
  have hthere : s.tree.isThere s.cwd (.text p) = .ok (decide (k = (pathNames p).length)) :=
    congrArg Except.ok (exists?_of_reaches hp hup hk)
  rw [Job.removeDirectory, run_get_bind, run_lift_bind_of_ok hthere]
  by_cases hfull : k = (pathNames p).length
  · subst hfull
    have hleads : LeadsTo s.tree s.cwd p := ⟨hp, hup, hk⟩
    obtain ⟨hempty, hremoved⟩ := removeChildren_all (placeOf s.cwd p) s.tree fun _ hn => hn
    have hclear : Job.clearDirectory (.text p) s = .ok () { s with
        tree := removeChildren (placeOf s.cwd p) (s.tree.childNames (placeOf s.cwd p)) s.tree } := by
      have hlisted : Job.listed (.text p) s = .ok (s.tree.childNames (placeOf s.cwd p)) s := by
        rw [Job.listed, run_get_bind]
        exact run_lift_of_ok hleads.list
      rw [Job.clearDirectory, run_bind_of_ok hlisted]
      exact Job.onTree_of_ok (apply_of_ok (hleads.clear ht))
    rw [decide_eq_true rfl, if_pos rfl, run_bind_of_ok hclear, Value.asText]
    refine (run_lift_bind_of_ok rfl).trans ?_
    rw [← hremoved]
    exact Job.onTree_of_ok (apply_of_ok ((hleads.removeChildren ht ht.childNames).2.removeEmpty hname hempty))
  · have hfind : s.tree.find? (placeOf s.cwd p) = none := by
      have hlast := hk.missing (pathNames p).length (by have := hk.le; omega) (Nat.le_refl _)
      rwa [List.take_length] at hlast
    rw [decide_eq_false hfull, ht.remove_self hfind]
    rfl

/-! ## Laying out -/

namespace FileTree

def laid (loc : Location) (content : List (Location × Node)) (t : FileTree) : FileTree :=
  content.foldl (fun t e => t.put (loc ++ e.1) e.2) t

theorem find?_laid_congr (hloc : loc ≠ []) (content : List (Location × Node)) (h : t.find? q = u.find? q) :
    (laid loc content t).find? q = (laid loc content u).find? q := by
  induction content generalizing t u with
  | nil => exact h
  | cons e content ih =>
    refine ih ?_
    by_cases hq : q = loc ++ e.1
    · rw [hq, find?_put_self (by simp [hloc]), find?_put_self (by simp [hloc])]
    · rw [find?_put_ne hq, find?_put_ne hq, h]

theorem find?_laid_apart (hq : ¬ loc <+: q) (content : List (Location × Node)) (t : FileTree) :
    (laid loc content t).find? q = t.find? q := by
  induction content generalizing t with
  | nil => rfl
  | cons e content ih =>
    refine (ih _).trans (find?_put_ne ?_ _ _)
    rintro rfl
    exact hq (List.prefix_append loc e.1)

theorem copyInto_eq {cwd : Location} {p : String} (hup : ".." ∉ pathNames p) (hk : Reaches t (startOf cwd p) (pathNames p) k)
    (hlt : k < (pathNames p).length) (content : List (Location × Node)) :
    copyInto cwd p content t = (do
      makeSound (startOf cwd p) (pathNames p)
      modify (laid (placeOf cwd p) content) : TreeStep Unit) t := by
  have hne : p ≠ "" := by
    rintro rfl
    exact absurd hlt (Nat.not_lt_zero k)
  rw [copyInto, run_bind_congr (makeDirectories_eq hup hk hlt) fun _ _ _ => rfl]
  by_cases hsound : ∀ n ∈ pathNames p, isSound n = true
  · have hmade : Reaches (makeWay (startOf cwd p) (pathNames p) t) (startOf cwd p) (pathNames p) (pathNames p).length := by
      have hk' : Reaches t (startOf cwd p) (pathNames p ++ []) k := by rwa [List.append_nil]
      have := hk'.made (by omega) hsound
      rwa [List.append_nil] at this
    have hrun := makeSound_ok (startOf cwd p) hsound t
    rw [run_bind_of_ok hrun, run_bind_of_ok hrun, run_get_bind, run_lift_bind_of_ok (hmade.locate hne hup).1]
    rfl
  · obtain ⟨bad, hbad⟩ := makeSound_error (startOf cwd p) hsound
    rw [run_bind_of_error (hbad t), run_bind_of_error (hbad t)]

def Spares (loc : Location) (before after : FileTree) : Prop :=
  ∀ q, ¬ loc <+: q → after.find? q = before.find? q ∨ q <+: loc ∧ before.find? q = none ∧ after.find? q = some .directory

def SameAlong (loc : Location) (t u : FileTree) : Prop := ∀ q, q <+: loc ∨ loc <+: q → t.find? q = u.find? q

section Renewing

variable {names more good : List String} (hne : names ≠ []) (hgood : good <+: names ++ more)
include hne

theorem find?_renewed (t : FileTree) (q : Location) : (makeWay here good (t.remove (here ++ names))).find? q =
      (if here ++ names <+: q then none else t.find? q).or (if OnWay here good q then some .directory else none) := by
  rw [find?_makeWay, find?_remove (by simp [hne])]

include hgood

theorem spares_renewed (content : List (Location × Node)) (t : FileTree) :
    Spares (here ++ names) t (laid (here ++ names ++ more) content (makeWay here good (t.remove (here ++ names)))) := by
  intro q hq
  have hapart : ¬ here ++ names ++ more <+: q := fun h => hq ((List.prefix_append _ more).trans h)
  rw [find?_laid_apart hapart, find?_renewed hne, if_neg hq]
  cases hfind : t.find? q with
  | some n => exact .inl rfl
  | none =>
    rw [Option.none_or]
    by_cases hway : OnWay here good q
    · refine .inr ⟨?_, rfl, if_pos hway⟩
      have hlong : q <+: here ++ names ++ more := by
        rw [List.append_assoc]
        exact hway.1.trans ((List.prefix_append_right_inj here).2 hgood)
      rcases List.prefix_or_prefix_of_prefix hlong (List.prefix_append (here ++ names) more) with h | h
      · exact h
      · exact absurd h hq
    · exact .inl (if_neg hway)

omit hgood in
theorem find?_renewed_above (ht : t.WellFormed) (hhere : t.find? here = some .directory) (hk : Reaches t here names k)
    (hgood : names.take k <+: good) (hq : q <+: here ++ names) (hne' : q ≠ here ++ names) :
    (makeWay here good (t.remove (here ++ names))).find? q =
      if q.length ≤ here.length ∨ OnWay here good q then some .directory else none := by
  have hoff : ¬ here ++ names <+: q := fun h => hne' (hq.eq_of_length (Nat.le_antisymm hq.length_le h.length_le))
  rw [find?_renewed hne, if_neg hoff]
  by_cases hshort : q.length ≤ here.length
  · have hdir : t.find? q = some .directory := by
      have hpre : q <+: here := List.prefix_of_prefix_length_le hq (List.prefix_append here names) hshort
      by_cases heq : q = here
      · rw [heq, hhere]
      · exact ht.above hhere hpre heq
    rw [hdir, Option.some_or, if_pos (.inl hshort)]
  · obtain ⟨i, hi, hqi⟩ : ∃ i ≤ names.length, q = here ++ names.take i := by
      refine ⟨q.length - here.length, ?_, ?_⟩
      · have := hq.length_le
        rw [List.length_append] at this
        omega
      · have htake := List.prefix_iff_eq_take.1 hq
        rw [List.take_append, List.take_of_length_le (by omega : here.length ≤ q.length)] at htake
        exact htake
    by_cases hway : OnWay here good q
    · rw [if_pos hway, if_pos (.inr hway)]
      by_cases hik : i ≤ k
      · rw [hqi, hk.there i hik]
        rfl
      · rw [hqi, hk.missing i (by omega) hi]
        rfl
    · -- what was there had names that directories can have, so it is on the way that is made
      have hik : ¬ i ≤ k := by
        intro hik
        refine hway ⟨?_, by omega⟩
        rw [hqi]
        exact (List.prefix_append_right_inj here).2 ((List.take_prefix_take_left hik).trans hgood)
      rw [if_neg hway, if_neg (not_or.2 ⟨hshort, hway⟩), hqi, hk.missing i (by omega) hi]
      rfl

omit hgood in
theorem sameAlong_renewed (ht : t.WellFormed) (hu : u.WellFormed) (hhere : t.find? here = some .directory)
    (hhere' : u.find? here = some .directory) {k' : Nat} (hk : Reaches t here names k) (hk' : Reaches u here names k')
    (hgood : names.take k <+: good) (hgood' : names.take k' <+: good) (content : List (Location × Node)) :
    SameAlong (here ++ names) (laid (here ++ names ++ more) content (makeWay here good (t.remove (here ++ names))))
      (laid (here ++ names ++ more) content (makeWay here good (u.remove (here ++ names)))) := by
  intro q hq
  refine find?_laid_congr (by simp [hne]) content ?_
  by_cases hbelow : here ++ names <+: q
  · rw [find?_renewed hne, find?_renewed hne, if_pos hbelow, if_pos hbelow]
  · have hq : q <+: here ++ names := hq.resolve_right hbelow
    have hne' : q ≠ here ++ names := fun h => hbelow (h ▸ List.prefix_refl _)
    rw [find?_renewed_above hne ht hhere hk hgood hq hne', find?_renewed_above hne hu hhere' hk' hgood' hq hne']

end Renewing

theorem Reaches.removed {names : List String} (hk : Reaches t here names k) (hne : names ≠ []) (more : List String) :
    Reaches (t.remove (here ++ names)) here (names ++ more) (min k (names.length - 1)) := by
  have hpos := List.length_pos_iff.2 hne
  have hloc : here ++ names ≠ [] := by simp [hne]
  have hshort : ∀ i < names.length, ¬ here ++ names <+: here ++ names.take i := by
    intro i hi hpre
    have hlen := hpre.length_le
    rw [List.length_append, List.length_append, List.length_take] at hlen
    omega
  have htake : ∀ i ≤ names.length, (names ++ more).take i = names.take i := fun i hi => List.take_append_of_le_length hi
  refine ⟨by rw [List.length_append]; omega, fun i hi => ?_, fun i hi hle => ?_, fun n hn => ?_⟩
  · rw [htake i (by omega), find?_remove hloc, if_neg (hshort i (by omega))]
    exact hk.there i (by omega)
  · by_cases hin : i < names.length
    · rw [htake i (by omega), find?_remove hloc, if_neg (hshort i hin)]
      exact hk.missing i (by omega) (by omega)
    · rw [find?_remove hloc, if_pos]
      rw [List.take_append, List.take_of_length_le (by omega : names.length ≤ i), ← List.append_assoc]
      exact List.prefix_append _ _
  · rw [htake _ (by omega)] at hn
    exact hk.sound n (List.take_subset_take_left names (Nat.min_le_left ..) hn)

end FileTree

end TraceArtifacts
