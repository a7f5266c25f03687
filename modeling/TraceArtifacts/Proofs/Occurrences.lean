import TraceArtifacts.Proofs.Steps
import TraceArtifacts.Value

/-!
# Proofs: the occurrences of a text

Counting and searching go through the same occurrences: from left to right, each behind the end of the one before.
-/

namespace TraceArtifacts.Text

variable {t s : List Char} {start i j n : Nat} {ps : List Nat}

/-- The places from `start` on where a text stands, each the first behind the end of the one before. -/
inductive Occurrences (t s : List Char) : Nat → List Nat → Prop where
  | done {start : Nat} (none : ∀ q, start ≤ q → ¬ t <+: s.drop q) : Occurrences t s start []
  | next {start p : Nat} {ps : List Nat} (behind : start ≤ p) (stands : t <+: s.drop p)
      (first : ∀ q, start ≤ q → q < p → ¬ t <+: s.drop q) (rest : Occurrences t s (p + t.length) ps) : Occurrences t s start (p :: ps)

namespace Occurrences

theorem unique (h : Occurrences t s start ps) {ps' : List Nat} (h' : Occurrences t s start ps') : ps' = ps := by
  induction h generalizing ps' with
  | done hnone =>
    cases h' with
    | done => rfl
    | next hbehind hstands => exact absurd hstands (hnone _ hbehind)
  | @next start p ps hbehind hstands hfirst _ ih =>
    cases h' with
    | done hnone => exact absurd hstands (hnone _ hbehind)
    | @next _ p' ps' hbehind' hstands' hfirst' hrest' =>
      have hle : p ≤ p' := Nat.le_of_not_lt fun hlt => hfirst p' hbehind' hlt hstands'
      have hge : p' ≤ p := Nat.le_of_not_lt fun hlt => hfirst' p hbehind hlt hstands
      obtain rfl := Nat.le_antisymm hle hge
      rw [ih hrest']

theorem start_le (h : Occurrences t s start ps) (hi : ps[0]? = some i) : start ≤ i := by
  cases h with
  | done => cases hi
  | next hbehind => exact Option.some.inj hi ▸ hbehind

theorem apart (h : Occurrences t s start ps) (hi : ps[n]? = some i) (hj : ps[n + 1]? = some j) : i + t.length ≤ j := by
  induction h generalizing n with
  | done => cases hi
  | next _ _ _ hrest ih =>
    cases n with
    | zero =>
      cases hi
      exact hrest.start_le hj
    | succ n => exact ih hi hj

end Occurrences

/-! ## Searching and counting -/

theorem indexOf?_none (ht : t ≠ []) (h : indexOf? t s = none) (q : Nat) : ¬ t <+: s.drop q := by
  induction s generalizing q with
  | nil => simpa using ht
  | cons c s ih =>
    rw [indexOf?] at h
    split at h
    · cases h
    · cases q with
      | zero => simpa using ‹¬ t.isPrefixOf (c :: s) = true›
      | succ q => exact ih (Option.map_eq_none_iff.1 h) q

theorem indexOf?_some (ht : t ≠ []) (h : indexOf? t s = some i) : t <+: s.drop i ∧ ∀ q < i, ¬ t <+: s.drop q := by
  induction s generalizing i with
  | nil => simp [indexOf?, ht] at h
  | cons c s ih =>
    rw [indexOf?] at h
    split at h
    · cases h
      exact ⟨List.isPrefixOf_iff_prefix.1 ‹_›, fun q hq => absurd hq q.not_lt_zero⟩
    · obtain ⟨i, hi, rfl⟩ := Option.map_eq_some_iff.1 h
      obtain ⟨hstands, hfirst⟩ := ih hi
      refine ⟨hstands, fun q hq => ?_⟩
      cases q with
      | zero => simpa using ‹¬ t.isPrefixOf (c :: s) = true›
      | succ q => exact hfirst q (Nat.lt_of_succ_lt_succ hq)

theorem countFrom_skip (t s : List Char) (k : Nat) : countFrom t k s = countFrom t 0 (s.drop k) := by
  induction s generalizing k with
  | nil => cases k <;> simp [countFrom]
  | cons c s ih =>
    cases k with
    | zero => rfl
    | succ k => rw [countFrom, ih, List.drop_succ_cons]

theorem countFrom_of_indexOf? (ht : t ≠ []) :
    countFrom t 0 s = ((indexOf? t s).map fun i => countFrom t 0 (s.drop (i + t.length)) + 1).getD 0 := by
  obtain ⟨a, t, rfl⟩ := List.exists_cons_of_ne_nil ht
  induction s with
  | nil => simp [countFrom, indexOf?]
  | cons c s ih =>
    rw [countFrom, indexOf?]
    split
    · rw [countFrom_skip, List.length_cons, Nat.add_sub_cancel, Option.map_some, Option.getD_some, Nat.zero_add, List.drop_succ_cons]
    · rw [ih, Option.map_map]
      congr 2
      funext i
      simp [Nat.succ_add]

/-- Search and count from a place on go through the occurrences from there on. -/
theorem exists_occurrences (ht : t ≠ []) (s : List Char) (start : Nat) : ∃ ps, Occurrences t s start ps ∧
    (∀ n, nthFrom t n start (s.drop start) = ps[n]?) ∧ countFrom t 0 (s.drop start) = ps.length := by
  have hlen := List.length_pos_iff.2 ht
  induction hk : s.length - start using Nat.strongRecOn generalizing start with
  | ind k ih =>
    rw [countFrom_of_indexOf? ht]
    cases hi : indexOf? t (s.drop start) with
    | none =>
      refine ⟨[], .done fun q hq => ?_, fun n => ?_, rfl⟩
      · have := indexOf?_none ht hi (q - start)
        rwa [List.drop_drop, Nat.add_sub_cancel' hq] at this
      · cases n <;> simp [nthFrom, hi]
    | some i =>
      obtain ⟨hstands, hfirst⟩ := indexOf?_some ht hi
      rw [List.drop_drop] at hstands
      have hshort : start + i < s.length := by
        have := hstands.length_le
        rw [List.length_drop] at this
        omega
      obtain ⟨ps, hps, hnth, hcount⟩ := ih (s.length - (start + i + t.length)) (by omega) _ rfl
      refine ⟨(start + i) :: ps, .next (Nat.le_add_right ..) hstands (fun q hq hlt => ?_) hps, fun n => ?_, ?_⟩
      · have := hfirst (q - start) (by omega)
        rwa [List.drop_drop, Nat.add_sub_cancel' hq] at this
      · cases n with
        | zero => simp [nthFrom, hi]
        | succ n =>
          rw [nthFrom, hi, List.getElem?_cons_succ, ← hnth]
          simp only [List.drop_drop, Nat.add_assoc]
      · rw [Option.map_some, Option.getD_some, List.drop_drop, ← Nat.add_assoc, hcount]
        rfl

end TraceArtifacts.Text

namespace TraceArtifacts

open Text

/-- A search for the n-th occurrence gives the n-th of those that a scan from left to right finds, one behind the end of the other, and
finds none exactly if there are fewer of them than are counted. -/
theorem findNth_occurrences (s t : String) (ht : t ≠ "") : ∃ ps, Occurrences t.toList s.toList 0 ps ∧
    (∀ ps', Occurrences t.toList s.toList 0 ps' → ps' = ps) ∧ Value.count (.text s) (.text t) = .ok ps.length ∧
    ∀ n : Int, 1 ≤ n → ∃ i, Value.findNth (.text s) (.text t) (.int n) = .ok i ∧ (0 ≤ i ↔ n ≤ ps.length) ∧
      (0 ≤ i → ps[(n - 1).toNat]? = some i.toNat) ∧
      ∀ j, Value.findNth (.text s) (.text t) (.int (n + 1)) = .ok j → 0 ≤ i → 0 ≤ j → i + t.length ≤ j := by
  have hne : t.toList ≠ [] := by simpa using ht
  obtain ⟨ps, hps, hnth, hcount⟩ := exists_occurrences hne s.toList 0
  have hfind : ∀ n : Int, 1 ≤ n →
      Value.findNth (.text s) (.text t) (.int n) = .ok (((ps[(n - 1).toNat]?).map Int.ofNat).getD (-1)) := by
    intro n _
    have hfound : ∀ m, Text.findNth t.toList s.toList m = ps[(m - 1).toNat]? := by
      intro m
      rw [Text.findNth, if_neg (by simpa using hne)]
      exact hnth _
    simp only [Value.findNth, hfound]
    cases ps with
    | nil => rfl
    | cons p ps => rfl
  refine ⟨ps, hps, fun ps' hps' => hps.unique hps', ?_, fun n hn => ⟨_, hfind n hn, ?_, ?_, fun j hj => ?_⟩⟩
  · show Except.ok (Text.count t.toList s.toList) = _
    rw [Text.count, if_neg (by simpa using hne)]
    exact congrArg Except.ok hcount
  · cases hi : ps[(n - 1).toNat]? with
    | none =>
      have := List.getElem?_eq_none_iff.1 hi
      rw [Option.map_none, Option.getD_none]
      omega
    | some i =>
      have := (List.getElem?_eq_some_iff.1 hi).1
      rw [Option.map_some, Option.getD_some, Int.ofNat_eq_natCast]
      omega
  · cases ps[(n - 1).toNat]? <;> simp
  · obtain rfl := ok_unique (hfind (n + 1) (by omega)) hj
    have hnext : (n + 1 - 1).toNat = (n - 1).toNat + 1 := by omega
    rw [hnext]
    cases hi : ps[(n - 1).toNat]? with
    | none => simp
    | some i =>
      cases hj : ps[(n - 1).toNat + 1]? with
      | none => simp
      | some j =>
        have hapart := hps.apart hi hj
        rw [String.length_toList] at hapart
        intro _ _
        exact Int.ofNat_le.2 hapart

/-- Of the three places where `aa` stands in `aaaa` the middle one overlaps the first. -/
theorem findNth_occurrences_overlap : "aa" ≠ "" ∧ Occurrences "aa".toList "aaaa".toList 0 [0, 2] ∧
    Value.count (.text "aaaa") (.text "aa") = .ok 2 ∧ Value.findNth (.text "aaaa") (.text "aa") (.int 2) = .ok 2 ∧
    Value.findNth (.text "aaaa") (.text "aa") (.int 3) = .ok (-1) := by
  obtain ⟨ps, hps, -, hcount, hall⟩ := findNth_occurrences "aaaa" "aa" (by decide)
  have hfirst : Value.findNth (.text "aaaa") (.text "aa") (.int 1) = .ok 0 := rfl
  have hsecond : Value.findNth (.text "aaaa") (.text "aa") (.int 2) = .ok 2 := rfl
  obtain ⟨_, hfound, -, hzero, -⟩ := hall 1 (by decide)
  obtain rfl := ok_unique hfirst hfound
  obtain ⟨_, hfound, -, htwo, -⟩ := hall 2 (by decide)
  obtain rfl := ok_unique hsecond hfound
  obtain rfl : ps = [0, 2] := by
    have hlen : ps.length = 2 := (Except.ok.inj hcount).symm
    obtain ⟨p, q, rfl⟩ := List.length_eq_two.1 hlen
    obtain rfl := Option.some.inj (hzero (by decide))
    obtain rfl := Option.some.inj (htwo (by decide))
    rfl
  exact ⟨by decide, hps, hcount, hsecond, rfl⟩

end TraceArtifacts
