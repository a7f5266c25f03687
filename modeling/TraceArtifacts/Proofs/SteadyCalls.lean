import TraceArtifacts.Proofs.Columns
import TraceArtifacts.Proofs.Reprocessing

/-!
# Proofs: calls that a second run finds as they are

Besides what preparing a call does to it, processing changes the trace in one way only: the functions of a call get their synonyms.
-/

namespace TraceArtifacts

variable {own raiseOnError : Bool} {fs : Fields} {found synonyms : List Synonym} {p : Prepared} {x : ProcedureName} {s s' t : Session}
  {algo k key : String} {u : Unit} {synonymOf : Value → Outcome (Option Synonym)}
  {call call' fns function functions now trace trace' v v' w : Value}

/-! ## Noting synonyms again -/

def noted (x : Value) : Option Synonym → Value
  | none => x
  | some s => x.withEntries [("synonym", .text s.synonym)]

def noteMember (synonymOf : Value → Outcome (Option Synonym)) (p : Value × Nat) : Change (List Synonym) := do
  match ← synonymOf p.1 with
  | none => return []
  | some s => do
      modify (Value.modifyAt (·.withEntries [("synonym", .text s.synonym)]) [.position p.2])
      return [s]

theorem noteAll_eq (synonymOf : Value → Outcome (Option Synonym)) : Synonym.noteAll synonymOf = (do
      return (← (← (← get).numbered).mapM (noteMember synonymOf)).flatten) := rfl

theorem noteMember_list {before : List Value} {x : Value} {after : List Value} :
    noteMember synonymOf (x, before.length) (.list (before ++ x :: after)) = .ok found v ↔
      ∃ n, synonymOf x = .ok n ∧ found = n.toList ∧ v = .list (before ++ noted x n :: after) := by
  simp only [noteMember, run_bind_ok, run_lift_ok]
  constructor
  · rintro ⟨n, _, ⟨hn, rfl⟩, h⟩
    cases n with
    | none =>
      cases h
      exact ⟨none, hn, rfl, rfl⟩
    | some s =>
      simp only [run_bind_ok, run_modify_ok, run_pure_ok] at h
      obtain ⟨_, _, rfl, rfl, rfl⟩ := h
      refine ⟨some s, hn, rfl, ?_⟩
      simp only [Value.modifyAt, modify_append]
      rfl
  · rintro ⟨n, hn, rfl, rfl⟩
    refine ⟨n, _, ⟨hn, rfl⟩, ?_⟩
    cases n with
    | none => rfl
    | some s =>
      simp only [run_bind_ok, run_modify_ok, run_pure_ok]
      refine ⟨(), _, rfl, rfl, ?_⟩
      simp only [Value.modifyAt, modify_append]
      rfl

theorem noteMembers_list {before xs : List Value} {found : List (List Synonym)} :
    (xs.zipIdx before.length).mapM (noteMember synonymOf) (.list (before ++ xs)) = .ok found v ↔
      ∃ ns, List.Forall₂ (fun x n => synonymOf x = .ok n) xs ns ∧ found = ns.map Option.toList ∧
        v = .list (before ++ List.zipWith noted xs ns) := by
  induction xs generalizing before found with
  | nil =>
    rw [List.zipIdx_nil, List.mapM_nil, run_pure_ok]
    constructor
    · rintro ⟨rfl, rfl⟩
      exact ⟨[], .nil, rfl, rfl⟩
    · rintro ⟨ns, hns, rfl, rfl⟩
      cases hns
      exact ⟨rfl, rfl⟩
  | cons x xs ih =>
    simp only [List.zipIdx_cons, List.mapM_cons, run_bind_ok, run_pure_ok, noteMember_list]
    have hstep : ∀ n ys, before ++ noted x n :: ys = (before ++ [noted x n]) ++ ys := fun n ys => by simp
    have hlen : ∀ n, before.length + 1 = (before ++ [noted x n]).length := fun n => by simp
    constructor
    · rintro ⟨one, _, ⟨n, hn, rfl, rfl⟩, rest, _, hrest, rfl, rfl⟩
      rw [hstep, hlen n, ih] at hrest
      obtain ⟨ns, hns, rfl, rfl⟩ := hrest
      exact ⟨n :: ns, .cons hn hns, rfl, by simp⟩
    · rintro ⟨ns, hns, rfl, rfl⟩
      obtain ⟨n, ns, hn, hrest, rfl⟩ := List.forall₂_cons_left_iff.1 hns
      refine ⟨_, _, ⟨n, hn, rfl, rfl⟩, ns.map Option.toList, _, ?_, rfl, rfl⟩
      rw [hstep, hlen n, ih]
      exact ⟨ns, hrest, rfl, by simp⟩

theorem noteAll_list {xs : List Value} : Synonym.noteAll synonymOf (.list xs) = .ok synonyms v ↔
      ∃ ns, List.Forall₂ (fun x n => synonymOf x = .ok n) xs ns ∧ synonyms = (ns.map Option.toList).flatten ∧
        v = .list (List.zipWith noted xs ns) := by
  have hnumbered : (Value.list xs).numbered = .ok xs.zipIdx := rfl
  have hloop : ∀ found w, xs.zipIdx.mapM (noteMember synonymOf) (.list xs) = .ok found w ↔
      ∃ ns, List.Forall₂ (fun x n => synonymOf x = .ok n) xs ns ∧ found = ns.map Option.toList ∧ w = .list (List.zipWith noted xs ns) :=
    fun found w => by simpa using @noteMembers_list synonymOf w [] xs found
  rw [noteAll_eq, run_get_bind, run_lift_bind_of_ok hnumbered, run_bind_ok]
  simp only [run_pure_ok, hloop]
  constructor
  · rintro ⟨found, _, ⟨ns, hns, rfl, rfl⟩, rfl, rfl⟩
    exact ⟨ns, hns, rfl, rfl⟩
  · rintro ⟨ns, hns, rfl, rfl⟩
    exact ⟨_, _, ⟨ns, hns, rfl, rfl⟩, rfl, rfl⟩

theorem forFunction_some {x : Value} {s : Synonym} :
    Synonym.forFunction x = .ok (some s) ↔ ∃ fs name schema, x = .object fs ∧ fs.lookup "name" = some name ∧
      fs.lookup "schema" = some schema ∧ Synonym.make name schema (.text Synonym.functionKind) = .ok s := by
  unfold Synonym.forFunction Synonym.ofRecord
  constructor
  · intro h
    cases ht : x.isTruthy with
    | false =>
      rw [ht] at h
      cases h
    | true =>
      rw [ht] at h
      simp only [if_not_true, bind_ok] at h
      obtain ⟨b, -, h⟩ := h
      cases b with
      | false => cases h
      | true =>
        simp only [if_not_true, bind_ok] at h
        obtain ⟨b, -, h⟩ := h
        cases b with
        | false => cases h
        | true =>
          simp only [if_not_true, bind_ok] at h
          obtain ⟨name, hname, schema, hschema, s', hs, h⟩ := h
          obtain rfl := Option.some.inj (pure_ok.1 h)
          obtain ⟨fs, rfl, hfs⟩ := Value.entry_ok.1 hname
          obtain ⟨gs, he, hgs⟩ := Value.entry_ok.1 hschema
          cases he
          exact ⟨fs, name, schema, rfl, hfs, hgs, hs⟩
  · rintro ⟨fs, name, schema, rfl, hname, hschema, hs⟩
    have ht : (Value.object fs).isTruthy = true := by
      cases fs with
      | nil => cases hname
      | cons f fs => rfl
    have h1 : (Value.object fs).has "name" = .ok true := by rw [Value.has_object, hname]; rfl
    have h2 : (Value.object fs).has "schema" = .ok true := by rw [Value.has_object, hschema]; rfl
    rw [ht, h1, h2, Value.entry_object, hname, Value.entry_object, hschema]
    change (do return some (← Synonym.make name schema _) : Outcome (Option Synonym)) = _
    exact bind_ok.2 ⟨s, hs, rfl⟩

theorem forFunction_noted {x : Value} {n : Option Synonym} (h : Synonym.forFunction x = .ok n) :
    Synonym.forFunction (noted x n) = .ok n ∧ noted (noted x n) n = noted x n := by
  cases n with
  | none => exact ⟨h, rfl⟩
  | some s =>
    obtain ⟨fs, name, schema, rfl, hname, hschema, hs⟩ := forFunction_some.1 h
    refine ⟨forFunction_some.2 ⟨_, name, schema, rfl, ?_, ?_, hs⟩, ?_⟩
    · rw [← hname]
      exact Fields.lookup_set_ne (show _ ≠ "synonym" by decide) _ _
    · rw [← hschema]
      exact Fields.lookup_set_ne (show _ ≠ "synonym" by decide) _ _
    · exact congrArg Value.object (Fields.set_set ..)

theorem forFunction_text {n : Option Synonym} (h : Synonym.forFunction (.text k) = .ok n) : n = none := by
  cases n with
  | none => rfl
  | some s =>
    obtain ⟨fs, name, schema, he, -⟩ := forFunction_some.1 h
    cases he

theorem noteMember_text {p : Value × Nat} (hp : p.1 = .text k) (h : noteMember Synonym.forFunction p v = .ok found v') : v' = v := by
  obtain ⟨n, hn, h⟩ := run_lift_bind_ok.1 h
  rw [hp] at hn
  obtain rfl := forFunction_text hn
  exact (run_pure_ok.1 h).2.symm

theorem members_text (hv : ∀ xs, v ≠ .list xs) {ms : List Value} (h : v.members = .ok ms) {m : Value} (hm : m ∈ ms) : ∃ k, m = .text k := by
  cases v with
  | list xs => exact absurd rfl (hv xs)
  | text s =>
    cases h
    obtain ⟨c, -, rfl⟩ := List.mem_map.1 hm
    exact ⟨_, rfl⟩
  | object fs =>
    cases h
    obtain ⟨f, -, rfl⟩ := List.mem_map.1 hm
    exact ⟨_, rfl⟩
  | _ => cases h

theorem noteAll_again (h : Synonym.noteAll Synonym.forFunction v = .ok synonyms v') :
    Synonym.noteAll Synonym.forFunction v' = .ok synonyms v' := by
  by_cases hlist : ∃ xs, v = .list xs
  · obtain ⟨xs, rfl⟩ := hlist
    obtain ⟨ns, hns, rfl, rfl⟩ := noteAll_list.1 h
    refine noteAll_list.2 ⟨ns, ?_, rfl, congrArg Value.list ?_⟩
    · clear h
      induction hns with
      | nil => exact .nil
      | cons hn _ ih => exact .cons (forFunction_noted hn).1 ih
    · clear h
      induction hns with
      | nil => rfl
      | cons hn _ ih => exact congrArg₂ List.cons (forFunction_noted hn).2.symm ih
  -- the members of anything else are texts, and nothing is noted on them
  · have hsame : v' = v := by
      rw [noteAll_eq, run_get_bind] at h
      simp only [run_parts, run_pure_ok] at h
      obtain ⟨ps, hps, found, w, hrun, -, rfl⟩ := h
      simp only [Value.numbered, bind_ok, pure_ok] at hps
      obtain ⟨ms, hms, rfl⟩ := hps
      refine (mapM_run_ok (I := fun rest w => w = v ∧ ∀ p ∈ rest, p ∈ ms.zipIdx) (R := fun _ _ => True)
        (fun p rest w one w' hI hp => ?_) ⟨rfl, fun p hp => hp⟩ hrun).1.1
      obtain ⟨rfl, hrest⟩ := hI
      obtain ⟨k, hk⟩ := members_text (fun xs he => hlist ⟨xs, he⟩) hms (List.fst_mem_of_mem_zipIdx (hrest p (.head _)))
      exact ⟨⟨noteMember_text hk hp, fun q hq => hrest q (.tail _ hq)⟩, trivial⟩
    subst hsame
    exact h

/-! ## Preparing a call whose functions were noted -/

theorem Fields.modify_comm {k' : String} (h : k ≠ k') (f g : Value → Value) (fs : Fields) :
    Fields.modify k f (Fields.modify k' g fs) = Fields.modify k' g (Fields.modify k f fs) := by
  induction fs with
  | nil => rfl
  | cons p fs ih =>
    obtain ⟨a, v⟩ := p
    by_cases ha : a = k <;> by_cases ha' : a = k' <;> simp [Fields.modify, ha, ha', h, Ne.symm h, ih]

def withFunctions (functions call : Value) : Value := call.putAt [.key "function"] functions

theorem withFunctions_putAt (hk : key ≠ "function") (functions v : Value) (fs : Fields) :
    withFunctions functions ((Value.object fs).putAt [.key key] v) = (withFunctions functions (.object fs)).putAt [.key key] v :=
  congrArg Value.object (Fields.modify_comm (Ne.symm hk) ..)

theorem onTraced_iff {c : Change α} {r : α × Value} : onTraced key c (.object fs) = .ok r call' ↔
      (∃ w, fs.lookup key = some w ∧ c w = .ok r.1 r.2 ∧ call' = (Value.object fs).putAt [.key key] r.2) ∨
        (fs.lookup key = none ∧ c (.list []) = .ok r.1 r.2 ∧ call' = .object fs) := by
  obtain ⟨a, v⟩ := r
  constructor
  · intro h
    rcases onTraced_ok h with ⟨w, hw, hc, rfl⟩ | ⟨hnone, hc, rfl⟩
    · refine .inl ⟨w, ?_, hc, rfl⟩
      obtain ⟨gs, he, hgs⟩ := Value.entry_ok.1 (Value.entry_eq_ok_iff.2 hw)
      cases he
      exact hgs
    · rw [Value.has_object, Except.ok.injEq, Option.isSome_eq_false_iff, Option.isNone_iff_eq_none] at hnone
      exact .inr ⟨hnone, hc, rfl⟩
  · rintro (⟨w, hw, hc, rfl⟩ | ⟨hnone, hc, rfl⟩)
    · have hat : (Value.object fs).at? [.key key] = some w := by
        rw [Value.at?_key, hw]
        rfl
      have hhas : (Value.object fs).has key = .ok true := by rw [Value.has_object, hw]; rfl
      simp only [onTraced, run_parts]
      refine ⟨true, hhas, ?_⟩
      simp only [if_true, run_parts, run_pure_ok]
      refine ⟨a, (Value.object fs).putAt [.key key] v, ?_, v, ?_, rfl, rfl⟩
      · rw [Change.within, hat]
        simp only [hc]
      · exact Value.entry_eq_ok_iff.2 (Value.at?_putAt_self v hat)
    · have hhas : (Value.object fs).has key = .ok false := by rw [Value.has_object, hnone]; rfl
      simp only [onTraced, run_parts]
      refine ⟨false, hhas, ?_⟩
      rw [if_neg (by simp)]
      simp only [hc]
      rfl

theorem onTraced_withFunctions (hk : key ≠ "function") {c : Change α} {r : α × Value} (h : onTraced key c (.object fs) = .ok r call')
    (functions : Value) : onTraced key c (withFunctions functions (.object fs)) = .ok r (withFunctions functions call') := by
  have hlookup : (Fields.modify "function" (Value.modifyAt (fun _ => functions) []) fs).lookup key = fs.lookup key := by
    rw [Fields.lookup_modify, if_neg hk]
  refine onTraced_iff.2 ?_
  rw [hlookup]
  refine (onTraced_iff.1 h).imp ?_ ?_
  · rintro ⟨w, hw, hc, rfl⟩
    exact ⟨w, hw, hc, withFunctions_putAt hk ..⟩
  · rintro ⟨hnone, hc, rfl⟩
    exact ⟨hnone, hc, rfl⟩

theorem prepare_withFunctions (h : prepare (.object fs) = .ok p call') (functions : Value)
    (hnow : (withFunctions functions (.object fs)).entryOr "function" (.list []) = .ok now) :
    prepare (withFunctions functions (.object fs)) = .ok { p with functions := now } (withFunctions functions call') := by
  have hs : (Value.object fs).SameBut ["function"] (withFunctions functions (.object fs)) := Value.sameBut_putAt ..
  simp only [prepare, run_parts] at h ⊢
  obtain ⟨f, -, statements, hstatements, ins, hins,
    outs, houts, vars, hvars, shares, hshares, b, hb, h⟩ := h
  rw [← hs.entryOr (by decide)] at hstatements hins houts hvars
  rw [← hs.has (by decide)] at hshares hb
  refine ⟨now, hnow, statements, hstatements, ins, hins,
    outs, houts, vars, hvars, shares, hshares, b, hb, ?_⟩
  cases b with
  | false =>
    cases h
    rfl
  | true =>
    simp only [if_not_true, run_parts] at h ⊢
    obtain ⟨block, hblock, h⟩ := h
    refine ⟨block, hblock, ?_⟩
    by_cases hempty : block = ""
    · rw [if_pos hempty] at h ⊢
      cases h
      rfl
    · rw [if_neg hempty] at h ⊢
      simp only [prepareBlock, run_parts, run_pure_ok] at h ⊢
      obtain ⟨auto, hauto, entries, hentries, group, hgroup, r1, c1, h1, found,
        hfound, r2, c2, h2, rfl, rfl⟩ := h
      obtain ⟨gs, rfl⟩ := (onTraced_record (a := r1.1) (v := r1.2) h1).1.isObject
      rw [← hs.entry (by decide)] at hauto
      exact ⟨auto, hauto, entries, hentries, group, hgroup, r1, _,
        onTraced_withFunctions (by decide) h1 functions, found, hfound, r2, _,
        onTraced_withFunctions (by decide) h2 functions, rfl, rfl⟩

/-! ## Calls that settle -/

def Steady (call : Value) : Prop := ∀ p call', prepare call = .ok p call' → prepare call' = .ok p call'

theorem Unblocked.steady (h : Unblocked (.object fs)) : Steady (.object fs) := by
  intro p call' hp
  rcases (prepare_as hp).parts with ⟨rfl, -⟩ | ⟨ins, outs, hblock⟩
  · exact hp
  · exact absurd h hblock.block.not_unblocked

def Settles (call now : Value) : Prop :=
  ∃ p call' functions synonyms, prepare call = .ok p call' ∧
    Synonym.noteAll Synonym.forFunction p.functions = .ok synonyms functions ∧ now = withFunctions functions call' ∧
    prepare now = .ok { p with functions } now

theorem settles_of_steady (hsteady : Steady (.object fs)) (hp : prepare (.object fs) = .ok p call')
    (hn : Synonym.noteAll Synonym.forFunction p.functions = .ok synonyms functions) :
    Settles (.object fs) (withFunctions functions call') := by
  have hagain := hsteady p call' hp
  obtain ⟨gs, rfl⟩ := (prepare_as hp).rest.isObject
  have hfs := (prepare_as hagain).functions
  rw [Value.entryOr_object] at hfs
  refine ⟨p, _, functions, synonyms, hp, hn, rfl, prepare_withFunctions hagain functions ?_⟩
  show Value.entryOr (.object (Fields.modify "function" (Value.modifyAt (fun _ => functions) []) gs)) _ _ = _
  rw [Value.entryOr_object, Fields.lookup_modify, if_pos rfl]
  cases hlook : gs.lookup "function" with
  | some f => rfl
  | none =>
    rw [hlook] at hfs
    rw [← Except.ok.inj hfs] at hn
    obtain ⟨ns, hns, -, rfl⟩ := noteAll_list.1 hn
    cases hns
    rfl

theorem Settles.unique {a b : Value} (ha : Settles call a) (hb : Settles call b) : a = b := by
  obtain ⟨p, c, f, y, hp, hn, rfl, -⟩ := ha
  obtain ⟨p', c', f', y', hp', hn', rfl, -⟩ := hb
  rw [hp, EStateM.Result.ok.injEq] at hp'
  obtain ⟨rfl, rfl⟩ := hp'
  rw [hn, EStateM.Result.ok.injEq] at hn'
  obtain ⟨-, rfl⟩ := hn'
  rfl

theorem withFunctions_self (functions call : Value) :
    withFunctions functions (withFunctions functions call) = withFunctions functions call :=
  Value.putAt_putAt ..

theorem Settles.again (h : Settles call now) : Settles now now := by
  obtain ⟨p, c, f, y, -, hn, rfl, hnow⟩ := h
  exact ⟨_, _, f, y, hnow, noteAll_again hn, (withFunctions_self ..).symm, hnow⟩

theorem Settles.sameBut (h : Settles (.object fs) now) : (Value.object fs).SameBut ["input_tables", "output_vars", "function"] now := by
  obtain ⟨p, c, f, y, hp, -, rfl, -⟩ := h
  have hrest := (prepare_as hp).rest
  obtain ⟨gs, rfl⟩ := hrest.isObject
  exact (hrest.mono (by simp)).trans ((Value.sameBut_putAt gs "function" f).mono (by simp))

theorem buildBase_noted {settings : Settings} {algo : Value} {b : BaseParts}
    (h : buildBase settings algo function p fns = .ok b functions) :
    ∃ synonyms, Synonym.noteAll Synonym.forFunction fns = .ok synonyms functions ∧
      ∀ fns' functions' q, Synonym.noteAll Synonym.forFunction fns' = .ok synonyms functions' →
        buildBase settings algo function { p with functions := q } fns' = .ok b functions' := by
  obtain ⟨inputs, synonyms, ys, hin, hout, hvars, hn, hrest⟩ := buildBase_ok.1 h
  exact ⟨synonyms, hn, fun fns' functions' q hn' => buildBase_ok.2 ⟨inputs, synonyms, ys, hin, hout, hvars, hn', hrest⟩⟩

/-! ## The rows of a trace -/

def SameKeys (v w : Value) : Prop := w = v ∨ ∃ fs gs, v = .object fs ∧ w = .object gs ∧ gs.map Prod.fst = fs.map Prod.fst

theorem SameKeys.members (h : SameKeys v w) : w.members = v.members := by
  rcases h with rfl | ⟨fs, gs, rfl, rfl, h⟩
  · rfl
  · have := congrArg (List.map Value.text) h
    rw [List.map_map, List.map_map] at this
    exact congrArg Except.ok this

theorem SameKeys.isTruthy (h : SameKeys v w) : w.isTruthy = v.isTruthy := by
  rcases h with rfl | ⟨fs, gs, rfl, rfl, h⟩
  · rfl
  · cases fs <;> cases gs <;> first | rfl | cases h

theorem SameKeys.trans {u : Value} (h1 : SameKeys u v) (h2 : SameKeys v w) : SameKeys u w := by
  rcases h1 with rfl | ⟨fs, gs, rfl, rfl, h1⟩
  · exact h2
  · rcases h2 with rfl | ⟨gs', hs, he, rfl, h2⟩
    · exact .inr ⟨fs, gs, rfl, rfl, h1⟩
    · cases he
      exact .inr ⟨fs, hs, rfl, rfl, h2.trans h1⟩

structure SameRows (trace trace' : Value) : Prop where
  algos : SameKeys trace trace'
  row : ∀ {algo v}, trace.entry algo = .ok v → ∃ w, trace'.entry algo = .ok w ∧ SameKeys v w

theorem SameRows.refl (trace : Value) : SameRows trace trace := ⟨.inl rfl, fun h => ⟨_, h, .inl rfl⟩⟩

theorem SameRows.trans {t u : Value} (h1 : SameRows t u) (h2 : SameRows u v) : SameRows t v where
  algos := h1.algos.trans h2.algos
  row := fun h => by
    obtain ⟨w, hw, hs⟩ := h1.row h
    obtain ⟨w', hw', hs'⟩ := h2.row hw
    exact ⟨w', hw', hs.trans hs'⟩

theorem sameKeys_modifyAt (f : Value → Value) (s : PlaceStep) (rest : Place) (v : Value)
    (hs : ∃ k, s = .key k) : SameKeys v (v.modifyAt f (s :: rest)) := by
  obtain ⟨k, rfl⟩ := hs
  cases v with
  | object fs => exact .inr ⟨fs, _, rfl, rfl, Fields.keys_modify ..⟩
  | _ => exact .inl rfl

theorem sameRows_putAt (trace : Value) (x : ProcedureName) (call : Value) : SameRows trace (trace.putAt (callPlace x) call) where
  algos := sameKeys_modifyAt _ _ _ trace ⟨_, rfl⟩
  row := fun {algo v} h => by
    obtain ⟨fs, rfl, hv⟩ := Value.entry_ok.1 h
    by_cases ha : algo = x.1
    · subst ha
      refine ⟨v.putAt [.key x.2] call, ?_, sameKeys_modifyAt _ _ _ v ⟨_, rfl⟩⟩
      show Value.entry (.object (Fields.modify x.1 _ fs)) _ = _
      rw [Value.entry_object, Fields.lookup_modify, if_pos rfl, hv]
      rfl
    · refine ⟨v, ?_, .inl rfl⟩
      show Value.entry (.object (Fields.modify x.1 _ fs)) _ = _
      rw [Value.entry_object, Fields.lookup_modify, if_neg ha, hv]
      rfl

theorem sameRows_of_putAt {old : Value} (h : trace.at? (callPlace x) = some old) (call : Value) :
    SameRows (trace.putAt (callPlace x) call) trace := by
  have hback := sameRows_putAt (trace.putAt (callPlace x) call) x old
  rwa [Value.putAt_putAt, Value.putAt_self h] at hback

theorem at?_putAt_call_ne {y : ProcedureName} (h : y ≠ x) (trace call : Value) :
    (trace.putAt (callPlace x) call).at? (callPlace y) = trace.at? (callPlace y) :=
  Value.at?_modifyAt_of_apart _ (callPlace_apart h).symm trace

/-! ## Processing calls that settle -/

theorem isCalled_iff_of_at? (h : trace'.at? (callPlace x) = trace.at? (callPlace x)) : IsCalled trace' x ↔ IsCalled trace x := by
  rw [IsCalled, IsCalled, Value.at?_append, Value.at?_append, h]

theorem IsCalled.settled (hx : IsCalled trace x) (hcall : trace.at? (callPlace x) = some call)
    (hnow : trace'.at? (callPlace x) = some now) (h : Settles call now) : IsCalled trace' x := by
  obtain ⟨fs, statements, hat, hsql⟩ := hx.call
  obtain rfl := Option.mem_unique hat hcall
  refine ⟨hx.1, statements, ?_⟩
  rw [Value.at?_append, hnow]
  show now.at? [.key "sql"] = _
  rw [h.sameBut.at? (by decide), Value.at?_key, hsql]
  rfl

theorem processCall_settles (h : processCall own x.1 x.2 s = .ok u s') (hcall : s.trace.at? (callPlace x) = some (.object fs))
    (hsteady : Steady (.object fs)) : ∃ now, Settles (.object fs) now ∧ s'.trace = s.trace.putAt (callPlace x) now := by
  obtain ⟨p, trace, layers, b, functions, layers', shared, hp, -, hb, -, rfl⟩ := processCall_run h
  obtain ⟨call, call', hplace, hprep, rfl⟩ := Value.within_ok hp
  obtain rfl := Option.mem_unique hcall hplace
  obtain ⟨synonyms, hn, -⟩ := buildBase_noted hb
  refine ⟨withFunctions functions call', settles_of_steady hsteady hprep hn, ?_⟩
  show (s.trace.putAt (callPlace x) call').putAt (callPlace x ++ [.key "function"]) functions = _
  rw [Value.putAt_append (Value.at?_putAt_self _ hplace), Value.putAt_putAt]
  rfl

/-- Two sessions of which the one processes a trace and the other what that trace becomes. -/
structure Alongside (s t : Session) : Prop where
  settings : t.settings = s.settings
  rows : SameRows s.trace t.trace
  called : ∀ {x call}, IsCalled s.trace x → s.trace.at? (callPlace x) = some call →
    ∃ now, t.trace.at? (callPlace x) = some now ∧ Settles call now
  others : ∀ {x}, ¬ IsCalled s.trace x → t.trace.at? (callPlace x) = s.trace.at? (callPlace x)

theorem processCall_of_ok (own : Bool) {layers layers' : Value} {b : BaseParts}
    (hp : Change.within (callPlace x) prepare s.trace = .ok p trace) (hl : s.settings.entry Setting.layers = .ok layers)
    (hb : buildBase s.settings (.text x.1) (.text x.2) p p.functions = .ok b functions)
    (hs : storeBase (.text x.1) (.text x.2) b layers = .ok () layers') :
    ∃ shared, processCall own x.1 x.2 s = .ok ()
      { s with trace := trace.putAt (callPlace x ++ [.key "function"]) functions
               settings := s.settings.set Setting.layers layers'
               sharedOutputs := shared } := by
  have htrace : Job.onTrace (Change.within [.key x.1, .key x.2] prepare) s = .ok p { s with trace } := by
    rw [callPlace] at hp
    rw [Job.onTrace, run_get_bind]
    simp only [hp]
    rfl
  have hbase : generateBase s.settings (.text x.1) (.text x.2) p { functions := p.functions, layers } =
      .ok () { functions, layers := layers' } := by
    rw [generateBase, run_get_bind]
    simp only [hb, hs]
    rfl
  have hlayers : Job.layers { s with trace } = .ok layers { s with trace } := Job.layers_ok.2 ⟨hl, rfl⟩
  unfold processCall
  rw [run_bind_of_ok htrace, run_get_bind, run_bind_of_ok hlayers]
  simp only [hbase]
  exact ⟨_, rfl⟩

theorem processCall_mirrors (h : processCall own x.1 x.2 s = .ok u s') (hx : IsCalled s.trace x) (hst : Alongside s t) :
    ∃ t', processCall own x.1 x.2 t = .ok () t' ∧ t'.trace = t.trace ∧ t'.nextId = t.nextId ∧ Alongside s' t' := by
  obtain ⟨p, trace, layers, b, functions, layers', shared, hp, hl, hb, hs, rfl⟩ := processCall_run h
  obtain ⟨call, call', hplace, hprep, rfl⟩ := Value.within_ok hp
  obtain ⟨now, hnow, hsettles⟩ := hst.called hx hplace
  obtain ⟨synonyms, hn, hagain⟩ := buildBase_noted hb
  -- what the call becomes is what stands in the other trace
  obtain ⟨p1, c1, f1, y1, hp1, hn1, hnow1, hprep1⟩ := id hsettles
  rw [hprep, EStateM.Result.ok.injEq] at hp1
  obtain ⟨rfl, rfl⟩ := hp1
  rw [hn, EStateM.Result.ok.injEq] at hn1
  obtain ⟨-, rfl⟩ := hn1
  have htrace : (s.trace.putAt (callPlace x) call').putAt (callPlace x ++ [.key "function"]) functions =
      s.trace.putAt (callPlace x) now := by
    rw [Value.putAt_append (Value.at?_putAt_self _ hplace), Value.putAt_putAt, hnow1]
    rfl
  have hkept : (t.trace.putAt (callPlace x) now).putAt (callPlace x ++ [.key "function"]) functions = t.trace := by
    rw [Value.putAt_self hnow, Value.putAt_append hnow, show now.putAt [.key "function"] functions = now from
      hnow1 ▸ withFunctions_self .., Value.putAt_self hnow]
  have hrun : ∃ shared', processCall own x.1 x.2 t = .ok ()
      { t with settings := t.settings.set Setting.layers layers', sharedOutputs := shared' } := by
    have hwithin : Change.within (callPlace x) prepare t.trace = .ok { p with functions } (t.trace.putAt (callPlace x) now) := by
      rw [Change.within, hnow]
      simp only [hprep1]
    have hl' : t.settings.entry Setting.layers = .ok layers := by rw [hst.settings]; exact hl
    have hb' := hagain functions functions functions (noteAll_again hn)
    rw [← hst.settings] at hb'
    obtain ⟨shared', hrun⟩ := processCall_of_ok own hwithin hl' hb' hs
    rw [hkept] at hrun
    exact ⟨shared', hrun⟩
  obtain ⟨shared', hrun⟩ := hrun
  refine ⟨_, hrun, rfl, rfl, ?_, ?_, ?_, ?_⟩
  · show t.settings.set _ _ = s.settings.set _ _
    rw [hst.settings]
  · show SameRows (Value.putAt _ _ _) _
    rw [htrace]
    exact (sameRows_of_putAt hplace now).trans hst.rows
  · intro y c hy hc
    change IsCalled (Value.putAt _ _ _) y at hy
    change Value.at? _ (Value.putAt _ _ _) = _ at hc
    rw [htrace] at hy hc
    by_cases hxy : y = x
    · subst hxy
      rw [Value.at?_putAt_self _ hplace] at hc
      cases hc
      exact ⟨now, hnow, hsettles.again⟩
    · rw [at?_putAt_call_ne hxy] at hc
      exact hst.called ((isCalled_iff_of_at? (at?_putAt_call_ne hxy ..)).1 hy) hc
  · intro y hy
    change ¬ IsCalled (Value.putAt _ _ _) y at hy
    show _ = Value.at? _ (Value.putAt _ _ _)
    rw [htrace] at hy ⊢
    by_cases hxy : y = x
    · subst hxy
      exact absurd (hx.settled hplace (Value.at?_putAt_self _ hplace) hsettles) hy
    · rw [at?_putAt_call_ne hxy]
      exact hst.others fun hcalled => hy ((isCalled_iff_of_at? (at?_putAt_call_ne hxy ..)).2 hcalled)

theorem at?_callPlace (h : trace.entry algo = .ok fns) (f : String) : trace.at? (callPlace (algo, f)) = fns.at? [.key f] := by
  rw [callPlace, Value.at?_cons, Value.entry_eq_ok_iff.1 h]
  rfl

theorem processFunction_eq (hfns : t.trace.entry algo = .ok fns) (hitem : fns.item function = .ok call) (raiseOnError own : Bool) :
    processFunction raiseOnError own algo function t = (do
      if call.isTruthy then
        if ← call.has "sql" then processCall own algo function.textOrEmpty
        else if raiseOnError then throw (.noStatements algo)
        else Job.report "error" ((Fault.noStatements algo).message.getD "") : Job Unit) t := by
  rw [processFunction, run_get_bind, run_lift_bind_of_ok hfns, run_lift_bind_of_ok hitem]

def Follows (final : Value) (n : Nat) (s t : Session) : Prop := Alongside s t ∧ t.trace = final ∧ t.nextId = n

variable {final : Value} {n : Nat}

theorem Alongside.log (h : Alongside s t) (log log' : List (String × String)) : Alongside { s with log } { t with log := log' } :=
  ⟨h.settings, h.rows, h.called, h.others⟩

theorem processFunction_skips {fns' : Value} (h : processFunction raiseOnError own algo function s = .ok u s')
    (hfns : s.trace.entry algo = .ok fns) (hitem : fns.item function = .ok call) (hfns' : t.trace.entry algo = .ok fns')
    (hitem' : fns'.item function = .ok call) (hno : call.isTruthy = false ∨ call.has "sql" = .ok false) :
    ∃ log, processFunction raiseOnError own algo function t = .ok () { t with log } := by
  rw [processFunction_eq hfns' hitem']
  rw [processFunction_eq hfns hitem] at h
  cases htruthy : call.isTruthy with
  | false => exact ⟨t.log, rfl⟩
  | true =>
    have hsql := hno.resolve_left (by simp [htruthy])
    rw [htruthy, if_pos rfl, run_lift_bind_of_ok hsql] at h
    rw [if_pos rfl, run_lift_bind_of_ok hsql]
    cases raiseOnError with
    | true => exact (run_throw_ok.1 h).elim
    | false => exact ⟨_, rfl⟩

theorem processFunction_mirrors (halgo : isSupported algo = true)
    (hf : ∀ gs, final.entry algo = .ok (.object gs) → ∃ f, function = .text f) :
    Mirrors (Follows final n) Eq (processFunction raiseOnError own algo function) (processFunction raiseOnError own algo function) := by
  rintro s t u s' ⟨hst, rfl, rfl⟩ h
  obtain ⟨fns, call, hfns, hitem, hcases⟩ := processFunction_ok h
  obtain ⟨fns', hfns', hkeys⟩ := hst.rows.row hfns
  -- functions of a record go by texts
  have htext : (∃ fs, fns = .object fs) → ∃ f, function = .text f := by
    rintro ⟨fs, rfl⟩
    rcases hkeys with rfl | ⟨-, gs, -, rfl, -⟩
    · exact hf _ hfns'
    · exact hf _ hfns'
  rcases hcases with ⟨hb, hrun⟩ | ⟨hno, log, rfl⟩
  · obtain ⟨p, call1, _, _, hcall, hprep, -⟩ := processCall_trace (x := (algo, function.textOrEmpty)) hrun
    have hat := (at?_callPlace hfns _).symm.trans hcall
    obtain ⟨f, rfl⟩ := htext ((Value.entry_ok.1 (Value.entry_eq_ok_iff.2 hat)).imp fun _ h => h.1)
    obtain rfl : call = call1 := Option.mem_unique (Value.item_eq_ok_iff.1 hitem) hat
    obtain ⟨statements, hsql⟩ := statements_of_prepare hprep hb
    have hx : IsCalled s.trace (algo, f) := by
      refine ⟨halgo, statements, ?_⟩
      rw [Value.at?_append, show s.trace.at? (callPlace (algo, f)) = some call from hcall]
      exact hsql
    obtain ⟨now, hnow, hsettles⟩ := hst.called hx hcall
    obtain ⟨fs, _, hnowfs, hnowsql⟩ := (hx.settled hcall hnow hsettles).call
    obtain rfl := Option.mem_unique hnowfs hnow
    have htruthy : (Value.object fs).isTruthy = true := by
      cases fs with
      | nil => cases hnowsql
      | cons p fs => rfl
    have hhas : (Value.object fs).has "sql" = .ok true := by
      rw [Value.has_object, hnowsql]
      rfl
    obtain ⟨t', hrun', htrace, hid, halong⟩ := processCall_mirrors hrun hx hst
    refine ⟨(), t', ?_, ⟨halong, htrace, hid⟩, rfl⟩
    have hitem' := Value.item_eq_ok_iff.2 ((at?_callPlace hfns' f).symm.trans hnow)
    rw [processFunction_eq hfns' hitem', if_pos htruthy, run_lift_bind_of_ok hhas]
    exact hrun'
  · have hitem' : fns'.item function = .ok call := by
      by_cases hrecord : ∃ fs, fns = .object fs
      · obtain ⟨f, rfl⟩ := htext hrecord
        have hcall := (at?_callPlace hfns f).trans (Value.item_eq_ok_iff.1 hitem)
        have hx : ¬ IsCalled s.trace (algo, f) := by
          intro hx
          obtain ⟨fs, _, hfs, hsql⟩ := hx.call
          obtain rfl := Option.mem_unique hfs hcall
          rcases hno with hno | hno
          · cases fs with
            | nil => cases hsql
            | cons p fs => cases hno
          · rw [Value.has_object, hsql] at hno
            cases hno
        rw [← hst.others hx] at hcall
        exact Value.item_eq_ok_iff.2 ((at?_callPlace hfns' f).symm.trans hcall)
      · rcases hkeys with rfl | ⟨fs, gs, rfl, -⟩
        · exact hitem
        · exact absurd ⟨fs, rfl⟩ hrecord
    obtain ⟨log', hrun⟩ := processFunction_skips h hfns hitem hfns' hitem' hno
    exact ⟨(), _, hrun, ⟨hst.log .., rfl, rfl⟩, rfl⟩

theorem processAlgo_mirrors (halgo : isSupported algo = true) :
    Mirrors (Follows final n) Eq (processAlgo raiseOnError own algo) (processAlgo raiseOnError own algo) := by
  rintro s t u s' hst h
  simp only [processAlgo_eq, run_parts] at h
  obtain ⟨functions, hfunctions, ms, hms, h⟩ := h
  obtain ⟨functions', hfunctions', hkeys⟩ := hst.1.rows.row hfunctions
  have hms' : functions'.members = .ok ms := hkeys.members.trans hms
  have hloop : Mirrors (Follows final n) Eq (ms.forM (processFunction raiseOnError own algo))
      (ms.forM (processFunction raiseOnError own algo)) := by
    refine Mirrors.forM (P := Eq) (List.forall₂_same.2 fun _ _ => rfl) ?_
    rintro function hmem _ rfl
    refine processFunction_mirrors halgo fun gs hgs => ?_
    rw [hst.2.1] at hfunctions'
    obtain rfl := ok_unique hgs hfunctions'
    cases hms'
    obtain ⟨p, -, rfl⟩ := List.mem_map.1 hmem
    exact ⟨p.1, rfl⟩
  obtain ⟨b, t', hrun, hst', hab⟩ := hloop hst h
  refine ⟨b, t', ?_, hst', hab⟩
  rw [processAlgo_eq, run_get_bind, run_lift_bind_of_ok hfunctions', run_lift_bind_of_ok hms']
  exact hrun

theorem processAlgos_mirrors (htrace : SameKeys trace trace') :
    Mirrors (Follows final n) Eq (processAlgos raiseOnError own trace) (processAlgos raiseOnError own trace') := by
  refine (mirrors_lift (P := Eq) fun ms hms => ⟨ms, htrace.members.trans hms, rfl⟩).bind ?_
  rintro ms _ rfl
  refine Mirrors.forM (P := Eq) (List.forall₂_same.2 fun _ _ => rfl) ?_
  rintro algo - _ rfl
  refine (mirrors_lift (P := Eq) fun a ha => ⟨a, ha, rfl⟩).bind ?_
  rintro name _ rfl
  by_cases hname : isSupported name = true
  · rw [if_pos hname]
    exact processAlgo_mirrors hname
  · rw [if_neg hname]
    exact mirrors_pure rfl

/-! ## What processing makes of a trace -/

theorem Settles.steady (h : Settles call now) : Steady now := by
  obtain ⟨p, -, functions, -, -, -, -, hnow⟩ := h
  intro q call' hq
  rw [hnow, EStateM.Result.ok.injEq] at hq
  obtain ⟨rfl, rfl⟩ := hq
  exact hnow

structure Settling (trace : Value) (now : Value) : Prop where
  rows : SameRows trace now
  called : ∀ {x call}, IsCalled trace x → trace.at? (callPlace x) = some call →
    ∃ call', now.at? (callPlace x) = some call' ∧ (call' = call ∨ Settles call call')
  others : ∀ {x}, ¬ IsCalled trace x → now.at? (callPlace x) = trace.at? (callPlace x)

theorem Settling.isCalled (h : Settling trace now) : IsCalled now x ↔ IsCalled trace x := by
  by_cases hx : IsCalled trace x
  · refine ⟨fun _ => hx, fun _ => ?_⟩
    obtain ⟨fs, statements, hcall, -⟩ := hx.call
    obtain ⟨call', hnow, rfl | hsettles⟩ := h.called hx hcall
    · exact (isCalled_iff_of_at? (hnow.trans hcall.symm)).2 hx
    · exact hx.settled hcall hnow hsettles
  · exact isCalled_iff_of_at? (h.others hx)

section Steady

variable (hsteady : ∀ {x call}, IsCalled trace x → trace.at? (callPlace x) = some call → Steady call)
include hsteady

theorem Settling.processCall (hs : Settling trace s.trace) (hx : IsCalled s.trace x) (h : processCall own x.1 x.2 s = .ok u s') :
    Settling trace s'.trace ∧
      ∀ {call}, trace.at? (callPlace x) = some call → ∃ now, s'.trace.at? (callPlace x) = some now ∧ Settles call now := by
  have hx' := hs.isCalled.1 hx
  obtain ⟨fs, -, hcall, -⟩ := hx'.call
  obtain ⟨gs, -, hcall', -⟩ := hx.call
  obtain ⟨call', hat, hcases⟩ := hs.called hx' hcall
  obtain rfl := Option.mem_unique hcall' hat
  have hsteady' : Steady (.object gs) := by
    rcases hcases with he | hsettles
    · rw [he]
      exact hsteady hx' hcall
    · exact hsettles.steady
  obtain ⟨now, hnow, htrace⟩ := processCall_settles h hcall' hsteady'
  have hbecomes : Settles (.object fs) now := by
    rcases hcases with he | hsettles
    · rw [← he]
      exact hnow
    · rw [← hsettles.again.unique hnow]
      exact hsettles
  have hself : s'.trace.at? (callPlace x) = some now := by
    rw [htrace]
    exact Value.at?_putAt_self _ hcall'
  refine ⟨⟨?_, fun {y c} hy hc => ?_, fun {y} hy => ?_⟩, fun {c} hc => ?_⟩
  · rw [htrace]
    exact hs.rows.trans (sameRows_putAt ..)
  · by_cases hxy : y = x
    · subst hxy
      obtain rfl := Option.mem_unique hcall hc
      exact ⟨now, hself, .inr hbecomes⟩
    · rw [htrace, at?_putAt_call_ne hxy]
      exact hs.called hy hc
  · have hxy : y ≠ x := fun e => hy (e ▸ hx')
    rw [htrace, at?_putAt_call_ne hxy]
    exact hs.others hy
  · obtain rfl := Option.mem_unique hcall hc
    exact ⟨now, hself, hbecomes⟩

theorem processAlgos_settles (htrace : s.trace = trace) (h : processAlgos raiseOnError own trace s = .ok u s') :
    Settling trace s'.trace ∧ ∀ {x call}, IsCalled trace x → trace.at? (callPlace x) = some call →
      ∃ now, s'.trace.at? (callPlace x) = some now ∧ Settles call now := by
  have hcall : ∀ {own x t u t'}, Settling trace t.trace → IsCalled t.trace x → processCall own x.1 x.2 t = .ok u t' →
      Settling trace t'.trace := fun hs hx hrun => (hs.processCall hsteady hx hrun).1
  have hstart : Settling trace s.trace := by
    rw [htrace]
    exact ⟨.refl _, fun _ hc => ⟨_, hc, .inl rfl⟩, fun _ => rfl⟩
  refine ⟨keeps_processAlgos_called (J := fun t => Settling trace t.trace) hcall (fun hJ _ => hJ) _ _ h hstart, ?_⟩
  intro x call hx hat
  refine processAlgos_brings (J := fun t => Settling trace t.trace)
    (K := fun t => ∃ now, t.trace.at? (callPlace x) = some now ∧ Settles call now) hcall (fun hJ _ => hJ) ?_
    (fun hK _ => hK) (fun hJ => hJ.isCalled.2 hx) (fun hJ hrun => (hJ.processCall hsteady (hJ.isCalled.2 hx) hrun).2 hat)
    h hx hstart
  -- a call that has settled stays as it is, also if it is processed again
  rintro y t v t' hJ ⟨now, hnow, hsettles⟩ hy hrun
  by_cases hxy : x = y
  · subst hxy
    exact (hJ.processCall hsteady hy hrun).2 hat
  · obtain ⟨gs, -, hcall', -⟩ := hy.call
    obtain ⟨_, _, _, _, -, -, -, hothers⟩ := processCall_trace hrun
    have := hothers x hxy []
    rw [List.append_nil] at this
    exact ⟨now, this.trans hnow, hsettles⟩

theorem processAlgos_again (htrace : s.trace = trace) (h : processAlgos raiseOnError own trace s = .ok u s')
    (hsettings : t.settings = s.settings) (ht : t.trace = s'.trace) :
    Settling trace t.trace ∧ ∃ t', processAlgos raiseOnError own t.trace t = .ok () t' ∧ t'.settings = s'.settings ∧
      t'.trace = t.trace ∧ t'.nextId = t.nextId := by
  obtain ⟨hsettling, hall⟩ := processAlgos_settles hsteady htrace h
  subst htrace
  rw [← ht] at hsettling hall
  have halong : Follows t.trace t.nextId s t := ⟨⟨hsettings, hsettling.rows, hall, hsettling.others⟩, rfl, rfl⟩
  obtain ⟨_, t', hrun, ⟨halong', htrace', hid⟩, -⟩ := processAlgos_mirrors hsettling.rows.algos halong h
  exact ⟨hsettling, t', hrun, halong'.settings, htrace', hid⟩

end Steady

theorem processAlgos_nextId (h : processAlgos raiseOnError own trace s = .ok u s') : s'.nextId = s.nextId := by
  refine keeps_processAlgos_called (J := fun t => t.nextId = s.nextId) (fun hJ _ hrun => ?_) (fun hJ _ => hJ) _ _ h rfl
  obtain ⟨_, _, _, _, _, _, _, -, -, -, -, rfl⟩ := processCall_run hrun
  exact hJ

/-! ## The statements of a trace -/

def rawFunction (algo functions function : Value) : Outcome String := do
  return Trace.rawMark "START" algo function ++ (← Trace.rawStatements (← functions.item function)) ++ Trace.rawMark "END" algo function

def rawRow (trace algo : Value) : Outcome (List String) := do
  let functions ← trace.item algo
  (← functions.members).mapM (rawFunction algo functions)

theorem raw_eq (trace : Value) :
    Trace.raw trace = (do return String.join ((← (← trace.members).mapM (rawRow trace)).map String.join)) := rfl

theorem Fields.lookup_of_key (h : k ∈ fs.map Prod.fst) : ∃ v, fs.lookup k = some v := by
  obtain ⟨p, hp, rfl⟩ := List.mem_map.1 h
  rw [← Option.isSome_iff_exists, ← Fields.any_key_eq]
  exact List.any_eq_true.2 ⟨p, hp, by simp⟩

theorem rawStatements_settling (h : Settling trace now) (hcall : trace.at? (callPlace x) = some call)
    (hcall' : now.at? (callPlace x) = some call') : Trace.rawStatements call' = Trace.rawStatements call := by
  by_cases hx : IsCalled trace x
  · obtain ⟨c, hc, rfl | hsettles⟩ := h.called hx hcall
    · rw [Option.mem_unique hcall' hc]
    · obtain rfl := Option.mem_unique hcall' hc
      obtain ⟨fs, -, hfs, -⟩ := hx.call
      obtain rfl := Option.mem_unique hfs hcall
      rw [Trace.rawStatements, Trace.rawStatements, hsettles.sameBut.entry (by decide)]
  · rw [h.others hx, hcall] at hcall'
    rw [Option.some.inj hcall']

theorem rawRow_settling (h : Settling trace now) (hfunctions : trace.entry algo = .ok functions) :
    rawRow now (.text algo) = rawRow trace (.text algo) := by
  obtain ⟨functions', hfunctions', hkeys⟩ := h.rows.row hfunctions
  have hitem : trace.item (.text algo) = .ok functions := Value.item_eq_ok_iff.2 (Value.entry_eq_ok_iff.1 hfunctions)
  have hitem' : now.item (.text algo) = .ok functions' := Value.item_eq_ok_iff.2 (Value.entry_eq_ok_iff.1 hfunctions')
  rw [rawRow, rawRow, hitem, hitem']
  rcases hkeys with rfl | ⟨fs, gs, rfl, rfl, hkeys⟩
  · rfl
  -- the functions are the same, and each has its call at the same place
  have hmembers := SameKeys.members (.inr ⟨fs, gs, rfl, rfl, hkeys⟩)
  show (do (← (Value.object gs).members).mapM (rawFunction (.text algo) (.object gs)) : Outcome _) = _
  rw [hmembers]
  refine mapM_congr_mem (m := Outcome) fun function hmem => ?_
  obtain ⟨p, hp, rfl⟩ := List.mem_map.1 hmem
  have hkey := List.mem_map_of_mem (f := Prod.fst) hp
  obtain ⟨call, hcall⟩ := Fields.lookup_of_key hkey
  obtain ⟨call', hcall'⟩ := Fields.lookup_of_key (hkeys ▸ hkey)
  rw [rawFunction, rawFunction, Value.item_object, Value.item_object, hcall, hcall']
  have hsame : Trace.rawStatements call' = Trace.rawStatements call := by
    refine rawStatements_settling h (x := (algo, p.1)) ?_ ?_
    · rw [at?_callPlace hfunctions, Value.at?_key, hcall]
      rfl
    · rw [at?_callPlace hfunctions', Value.at?_key, hcall']
      rfl
  show (do return _ ++ (← Trace.rawStatements call') ++ _ : Outcome _) = _
  rw [hsame]
  rfl

theorem raw_settling (h : Settling trace now) : Trace.raw now = Trace.raw trace := by
  rw [raw_eq, raw_eq, h.rows.algos.members]
  rcases h.rows.algos with rfl | ⟨fs, gs, rfl, rfl, -⟩
  · rfl
  have hrows : (fs.map fun f : String × Value => Value.text f.1).mapM (rawRow (.object gs)) =
      (fs.map fun f : String × Value => Value.text f.1).mapM (rawRow (.object fs)) := by
    refine mapM_congr_mem (m := Outcome) fun algo halgo => ?_
    obtain ⟨p, hp, rfl⟩ := List.mem_map.1 halgo
    obtain ⟨v, hv⟩ := Fields.lookup_of_key (List.mem_map_of_mem (f := Prod.fst) hp)
    exact rawRow_settling h (Value.entry_ok.2 ⟨fs, rfl, hv⟩)
  rw [members_object]
  show (do return String.join ((← List.mapM _ _).map String.join) : Outcome _) = _
  rw [hrows]
  rfl

end TraceArtifacts
