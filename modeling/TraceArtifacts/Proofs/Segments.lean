import Mathlib.Data.List.Basic
import Mathlib.Data.List.Infix
import TraceArtifacts.Proofs.Places
import TraceArtifacts.Settings

/-!
# Segments of a text

The keys of a table split a text from left to right: at each place the longest key that stands there is a segment, and where none
does the next character is one.
-/

namespace TraceArtifacts.Text

inductive Segment where
  | key (k : List Char)
  | literal (c : Char)
deriving DecidableEq

namespace Segment

def source : Segment → List Char
  | key k => k
  | literal c => [c]

def image (value : List Char → List Char) : Segment → List Char
  | key k => value k
  | literal c => [c]

end Segment

structure LongestAt (keys : List (List Char)) (s k : List Char) : Prop where
  mem : k ∈ keys
  ne_nil : k ≠ []
  stands : k <+: s
  longest : ∀ k' ∈ keys, k' <+: s → k'.length ≤ k.length

def NoneAt (keys : List (List Char)) (s : List Char) : Prop := ∀ k ∈ keys, k ≠ [] → ¬ k <+: s

inductive Splits (keys : List (List Char)) : List Char → List Segment → Prop where
  | done : Splits keys [] []
  | key {k rest : List Char} {segs : List Segment} (h : LongestAt keys (k ++ rest) k)
      (hrest : Splits keys rest segs) : Splits keys (k ++ rest) (.key k :: segs)
  | literal {c : Char} {rest : List Char} {segs : List Segment} (h : NoneAt keys (c :: rest))
      (hrest : Splits keys rest segs) : Splits keys (c :: rest) (.literal c :: segs)

/-! ## The longest key at a place -/

theorem LongestAt.eq {keys : List (List Char)} {s k k' : List Char} (h : LongestAt keys s k) (h' : LongestAt keys s k') : k = k' := by
  have hlen : k.length = k'.length := Nat.le_antisymm (h'.longest k h.mem h.stands) (h.longest k' h'.mem h'.stands)
  have hprefix : k <+: k' := List.prefix_of_prefix_length_le h.stands h'.stands (Nat.le_of_eq hlen)
  exact hprefix.eq_of_length hlen

theorem LongestAt.not_none {keys : List (List Char)} {s k : List Char} (h : LongestAt keys s k) : ¬ NoneAt keys s :=
  fun hnone => hnone k h.mem h.ne_nil h.stands

theorem longestMatch?_spec (m : Substitution) (s : List Char) :
    (∃ k v, longestMatch? m s = some (k, v) ∧ (k, v) ∈ m ∧ LongestAt (m.map Prod.fst) s k) ∨
      (longestMatch? m s = none ∧ NoneAt (m.map Prod.fst) s) := by
  induction m with
  | nil => exact .inr ⟨rfl, nofun⟩
  | cons p rest ih =>
    obtain ⟨k, v⟩ := p
    rw [longestMatch?]
    obtain ⟨k', v', hfound, hmem, hlong⟩ | ⟨hfound, hnone⟩ := ih
    · rw [hfound]
      by_cases hwin : k <+: s ∧ k'.length < k.length
      · have hne : k ≠ [] := by
          rintro rfl
          exact absurd hwin.2 (Nat.not_lt_zero _)
        refine .inl ⟨k, v, by simp [hwin], .head _, ⟨.head _, hne, hwin.1, ?_⟩⟩
        intro k'' hk'' hstands
        obtain rfl | hk'' := List.mem_cons.1 hk''
        · exact Nat.le_refl _
        · have := hlong.longest k'' hk'' hstands
          omega
      · refine .inl ⟨k', v', by simp [hwin], List.mem_cons_of_mem _ hmem,
          ⟨List.mem_cons_of_mem _ hlong.mem, hlong.ne_nil, hlong.stands, ?_⟩⟩
        intro k'' hk'' hstands
        obtain rfl | hk'' := List.mem_cons.1 hk''
        · exact Nat.le_of_not_lt fun hlt => hwin ⟨hstands, hlt⟩
        · exact hlong.longest k'' hk'' hstands
    · rw [hfound]
      by_cases hwin : k <+: s ∧ k ≠ []
      · refine .inl ⟨k, v, by simp [hwin], .head _, ⟨.head _, hwin.2, hwin.1, ?_⟩⟩
        intro k'' hk'' hstands
        obtain rfl | hk'' := List.mem_cons.1 hk''
        · exact Nat.le_refl _
        · -- of the other keys only the empty one can stand here
          by_cases hempty : k'' = []
          · simp [hempty]
          · exact absurd hstands (hnone k'' hk'' hempty)
      · refine .inr ⟨by simpa using hwin, ?_⟩
        intro k'' hk'' hne hstands
        obtain rfl | hk'' := List.mem_cons.1 hk''
        · exact hwin ⟨hstands, hne⟩
        · exact hnone k'' hk'' hne hstands

/-! ## A text splits in one way -/

namespace Splits

variable {keys : List (List Char)} {s : List Char} {segs : List Segment}

theorem sources (h : Splits keys s segs) : segs.flatMap Segment.source = s := by
  induction h with
  | done => rfl
  | key _ _ ih => rw [List.flatMap_cons, ih, Segment.source]
  | literal _ _ ih => rw [List.flatMap_cons, ih, Segment.source, List.singleton_append]

theorem mem_keys (h : Splits keys s segs) {k : List Char} (hk : Segment.key k ∈ segs) : k ∈ keys ∧ k ≠ [] := by
  induction h with
  | done => cases hk
  | key hlong _ ih =>
    obtain heq | hk := List.mem_cons.1 hk
    · injection heq with heq
      exact heq ▸ ⟨hlong.mem, hlong.ne_nil⟩
    · exact ih hk
  | literal _ _ ih =>
    obtain heq | hk := List.mem_cons.1 hk
    · injection heq
    · exact ih hk

theorem images_congr (h : Splits keys s segs) {value value' : List Char → List Char} (hvalue : ∀ k ∈ keys, k ≠ [] → value k = value' k) :
    segs.flatMap (Segment.image value) = segs.flatMap (Segment.image value') := by
  refine List.flatMap_congr fun seg hseg => ?_
  cases seg with
  | key k =>
    obtain ⟨hk, hne⟩ := h.mem_keys hseg
    exact hvalue k hk hne
  | literal c => rfl

theorem congr {keys' : List (List Char)} (hkeys : ∀ k, k ∈ keys' ↔ k ∈ keys) (h : Splits keys s segs) : Splits keys' s segs := by
  induction h with
  | done => exact .done
  | key hlong _ ih =>
    exact .key ⟨(hkeys _).2 hlong.mem, hlong.ne_nil, hlong.stands, fun k' hk' => hlong.longest k' ((hkeys k').1 hk')⟩ ih
  | literal hnone _ ih => exact .literal (fun k hk => hnone k ((hkeys k).1 hk)) ih

theorem cases_at (h : Splits keys s segs) : (s = [] ∧ segs = []) ∨
      (∃ k rest segs', s = k ++ rest ∧ segs = .key k :: segs' ∧ LongestAt keys s k ∧ Splits keys rest segs') ∨
      ∃ c rest segs', s = c :: rest ∧ segs = .literal c :: segs' ∧ NoneAt keys s ∧ Splits keys rest segs' := by
  cases h with
  | done => exact .inl ⟨rfl, rfl⟩
  | key hlong hrest => exact .inr (.inl ⟨_, _, _, rfl, rfl, hlong, hrest⟩)
  | literal hnone hrest => exact .inr (.inr ⟨_, _, _, rfl, rfl, hnone, hrest⟩)

theorem unique (h : Splits keys s segs) {segs' : List Segment} (h' : Splits keys s segs') : segs' = segs := by
  induction h generalizing segs' with
  | done =>
    obtain ⟨_, rfl⟩ | ⟨k, rest, _, hs, _, hlong, _⟩ | ⟨c, rest, _, hs, _⟩ := h'.cases_at
    · rfl
    · exact absurd (List.append_eq_nil_iff.1 hs.symm).1 hlong.ne_nil
    · exact absurd hs (List.cons_ne_nil c rest).symm
  | @key k rest segs hlong hrest ih =>
    obtain ⟨hs, _⟩ | ⟨k', rest', segs', hs, rfl, hlong', hrest'⟩ | ⟨_, _, _, _, _, hnone, _⟩ := h'.cases_at
    · exact absurd (List.append_eq_nil_iff.1 hs).1 hlong.ne_nil
    · obtain rfl := hlong.eq hlong'
      obtain rfl := List.append_cancel_left hs
      rw [ih hrest']
    · exact absurd hnone hlong.not_none
  | @literal c rest segs hnone hrest ih =>
    obtain ⟨hs, _⟩ | ⟨_, _, _, _, _, hlong, _⟩ | ⟨c', rest', segs', hs, rfl, _, hrest'⟩ := h'.cases_at
    · exact absurd hs (List.cons_ne_nil c rest)
    · exact absurd hnone hlong.not_none
    · obtain ⟨rfl, rfl⟩ := List.cons.inj hs
      rw [ih hrest']

end Splits

/-! ## Substitution by segments -/

theorem substituteFrom_skip (m : Substitution) {k rest : List Char} : substituteFrom m k.length (k ++ rest) = substituteFrom m 0 rest := by
  induction k with
  | nil => rfl
  | cons c k ih => rw [List.length_cons, List.cons_append, substituteFrom, ih]

theorem substituteFrom_splits {m : Substitution} {value : List Char → List Char}
    (hvalue : ∀ p ∈ m, p.1 ≠ [] → inserted p.2 = .ok (value p.1)) (hfiller : filler m = .ok []) :
    ∀ (n : Nat) {s : List Char}, s.length = n → ∃ segs, Splits (m.map Prod.fst) s segs ∧
      substituteFrom m 0 s = .ok (segs.flatMap (Segment.image value)) := by
  intro n
  induction n using Nat.strong_induction_on with
  | _ n ih =>
    intro s hlen
    cases s with
    | nil => exact ⟨[], .done, hfiller⟩
    | cons c cs =>
      rw [substituteFrom]
      obtain ⟨k, v, hfound, hmem, hlong⟩ | ⟨hfound, hnone⟩ := longestMatch?_spec m (c :: cs)
      · obtain ⟨rest, hs⟩ := hlong.stands
        have hlt : rest.length < n := by
          have := congrArg List.length hs
          have := List.length_pos_iff.2 hlong.ne_nil
          simp only [List.length_append] at *
          omega
        obtain ⟨segs, hsplits, hrest⟩ := ih _ hlt rfl
        refine ⟨.key k :: segs, hs ▸ .key (hs.symm ▸ hlong) hsplits, ?_⟩
        have hskip : substituteFrom m (k.length - 1) cs = substituteFrom m 0 rest := by
          obtain ⟨d, k, rfl⟩ := List.exists_cons_of_ne_nil hlong.ne_nil
          obtain ⟨rfl, rfl⟩ := List.cons.inj hs
          exact substituteFrom_skip m
        rw [hfound]
        simp only [hvalue _ hmem hlong.ne_nil, hskip, hrest]
        rfl
      · obtain ⟨segs, hsplits, hrest⟩ := ih cs.length (by simp only [List.length_cons] at hlen; omega) rfl
        refine ⟨.literal c :: segs, .literal hnone hsplits, ?_⟩
        rw [hfound]
        simp only [hfiller, hrest]
        rfl

end TraceArtifacts.Text

namespace TraceArtifacts

open Text

def tableKeys (m : List (String × α)) : List (List Char) := m.map fun p => p.1.toList

def tableText (fs : Fields) (k : List Char) : List Char := ((Value.object fs).textAt (String.ofList k)).toList

theorem substituteFields_splits {fs : Fields} (hne : fs ≠ []) {value : List Char → List Char}
    (hvalue : ∀ p ∈ fs, inserted p.2 = .ok (value p.1.toList)) (hempty : value [] = []) (s : String) :
    ∃ segs, Splits (tableKeys fs) s.toList segs ∧ substituteFields fs s = .ok (String.ofList (segs.flatMap (Segment.image value))) := by
  have hinserted : ∀ p ∈ fs.map fun f => (f.1.toList, f.2), inserted p.2 = .ok (value p.1) := by
    intro p hp
    obtain ⟨f, hf, rfl⟩ := List.mem_map.1 hp
    exact hvalue f hf
  have hfiller : filler (fs.map fun f => (f.1.toList, f.2)) = .ok [] := by
    unfold filler
    cases hlook : (fs.map fun f => (f.1.toList, f.2)).lookup [] with
    | none => rfl
    | some v =>
      obtain ⟨_, _, hfs, _⟩ := List.lookup_eq_some_iff.1 hlook
      rw [← hempty]
      exact hinserted ([], v) (by rw [hfs]; simp)
  have hsome : (fs.map fun f => (f.1.toList, f.2)).isEmpty = false := by simpa using hne
  obtain ⟨segs, hsplits, hout⟩ := substituteFrom_splits (fun p hp _ => hinserted p hp) hfiller s.toList.length rfl
  refine ⟨segs, ?_, ?_⟩
  · rwa [List.map_map] at hsplits
  · rw [substituteFields, substitute, hsome, if_neg Bool.false_ne_true, hout]
    rfl

theorem substituteValue_record (fs : Fields) (s : String) : substituteValue (.text s) (.object fs) false = substituteFields fs s := by
  have hkeys : (fs.map fun f => Value.text f.1).mapM Value.asText = .ok (fs.map Prod.fst) := by
    rw [mapM_ok, List.forall₂_map_left_iff, List.forall₂_map_right_iff]
    exact List.forall₂_same.2 fun _ _ => rfl
  unfold substituteValue
  simp only [Bool.false_eq_true, if_false, Value.members, bind, Except.bind, hkeys, Value.asText]

theorem substituteValue_splits {fs : Fields} (hne : fs ≠ []) {value : List Char → List Char}
    (hvalue : ∀ p ∈ fs, inserted p.2 = .ok (value p.1.toList)) (hempty : value [] = []) (s : String) :
    ∃ segs, Splits (tableKeys fs) s.toList segs ∧
      substituteValue (.text s) (.object fs) false = .ok (String.ofList (segs.flatMap (Segment.image value))) := by
  rw [substituteValue_record]
  exact substituteFields_splits hne hvalue hempty s

def textFields (m : List (String × String)) : Fields := m.map fun p => (p.1, .text p.2)

theorem tableText_textFields {m : List (String × String)} (hnodup : (m.map Prod.fst).Nodup) {p : String × String}
    (hp : p ∈ m) : tableText (textFields m) p.1.toList = p.2.toList := by
  have hkeys : ((textFields m).map Prod.fst).Nodup := by
    rw [textFields, List.map_map]
    exact hnodup
  have hlook : (textFields m).lookup p.1 = some (.text p.2) := Fields.lookup_of_mem hkeys (List.mem_map.2 ⟨p, hp, rfl⟩)
  rw [tableText, String.ofList_toList, Value.textAt, Value.get_object, hlook]
  rfl

theorem tableText_nil {m : List (String × String)} (hkeys : "" ∉ m.map Prod.fst) : tableText (textFields m) [] = [] := by
  have hnone : (textFields m).lookup "" = none := by
    rw [List.lookup_eq_none_iff]
    intro p hp
    obtain ⟨q, hq, rfl⟩ := List.mem_map.1 hp
    exact bne_iff_ne.2 fun heq => hkeys (heq ▸ List.mem_map_of_mem hq)
  rw [tableText, Value.textAt, Value.get_object]
  rw [show String.ofList [] = "" from rfl, hnone]
  rfl

theorem substituteValue_ofTable {m : List (String × String)} (hne : m ≠ [])
    (hnodup : (m.map Prod.fst).Nodup) (hkeys : "" ∉ m.map Prod.fst) (s : String) :
    ∃ segs, Splits (tableKeys m) s.toList segs ∧ substituteValue (.text s) (Value.ofTable m) false =
      .ok (String.ofList (segs.flatMap (Segment.image (tableText (textFields m))))) := by
  have hne' : textFields m ≠ [] := by simpa [textFields] using hne
  have hvalue : ∀ p ∈ textFields m, inserted p.2 = .ok (tableText (textFields m) p.1.toList) := by
    intro p hp
    obtain ⟨q, hq, rfl⟩ := List.mem_map.1 hp
    rw [tableText_textFields hnodup hq]
    rfl
  obtain ⟨segs, hsplits, hout⟩ := substituteValue_splits hne' hvalue (tableText_nil hkeys) s
  refine ⟨segs, ?_, hout⟩
  rwa [tableKeys, textFields, List.map_map] at hsplits

end TraceArtifacts
