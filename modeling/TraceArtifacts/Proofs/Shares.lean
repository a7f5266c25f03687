import TraceArtifacts.Proofs.Batches
import Mathlib.Data.Rat.Floor
import Mathlib.Tactic.Linarith

/-!
# Proofs: shares of a batch

A batch is shuffled and cut at two places. The test part takes what is behind the second one, but only if it has a share at all.
-/

namespace TraceArtifacts.Loading

variable {α : Type}

/-! ## Shuffling -/

theorem swapIfInBounds_perm (xs : Array α) (i j : Nat) : (xs.swapIfInBounds i j).Perm xs := by
  rw [Array.swapIfInBounds_def]
  split
  · split
    · exact Array.swap_perm _ _
    · exact .rfl
  · exact .rfl

theorem shuffleDown_perm (i : Nat) (g : Generator) (xs : Array α) : (shuffleDown i g xs).Perm xs := by
  induction i generalizing g xs with
  | zero => exact .rfl
  | succ i ih => exact (ih _ _).trans (swapIfInBounds_perm ..)

theorem shuffled_perm (seed : UInt32) (xs : List α) : (shuffled seed xs).Perm xs := (shuffleDown_perm _ _ _).toList

/-! ## Cutting -/

section Cutting

variable {p q r : Rat} {n : Nat}

/-- How many of `n` rows a share has, rounded down. -/
def rowsFor (n : Nat) (p : Rat) : Nat := ((n : Rat) * p).floor.toNat

theorem floor_eq_rowsFor (n : Nat) (hp : 0 ≤ p) : ((n : Rat) * p).floor = rowsFor n p := by
  have hfloor : 0 ≤ ((n : Rat) * p).floor := Rat.le_floor_iff.2 (by simpa using Rat.mul_nonneg (by exact_mod_cast n.zero_le) hp)
  exact (Int.toNat_of_nonneg hfloor).symm

theorem rowsFor_zero (n : Nat) : rowsFor n 0 = 0 := by
  rw [rowsFor, Rat.mul_zero]
  rfl

theorem stop_exact (hp : 0 ≤ p) (start : Nat) : (Share.exact p).stop n start = .ok ((start + rowsFor n p : Nat) : Int) := by
  by_cases hpos : 0 < p
  · simp only [Share.stop, Share.isPositive, hpos, decide_true, if_true, Share.rowsOf, floor_eq_rowsFor n hp]
    rfl
  · obtain rfl : p = 0 := Rat.le_antisymm (Rat.not_lt.1 hpos) hp
    rw [rowsFor_zero]
    rfl

theorem rowsFor_le (n : Nat) (hp : 0 ≤ p) : (rowsFor n p : Rat) ≤ n * p := by
  have := Rat.floor_le ((n : Rat) * p)
  rwa [floor_eq_rowsFor n hp, Int.cast_natCast] at this

theorem rowsFor_of_whole {k : Nat} (h : (n : Rat) * p = k) : rowsFor n p = k := by
  rw [rowsFor, h]
  exact congrArg Int.toNat (Rat.floor_intCast k)

theorem rowsFor_add_le (hp : 0 ≤ p) (hq : 0 ≤ q) (h : p + q ≤ 1) : rowsFor n p + rowsFor n q ≤ n := by
  have hn : (0 : Rat) ≤ n := by exact_mod_cast n.zero_le
  have hboth : (rowsFor n p : Rat) + rowsFor n q ≤ n := by
    have := mul_le_mul_of_nonneg_left h hn
    linarith [rowsFor_le n hp, rowsFor_le n hq]
  exact_mod_cast hboth

/-- Two shares that leave nothing to a third have all rows if and only if no share is rounded. -/
theorem rowsFor_add_eq_iff (hp : 0 ≤ p) (hq : 0 ≤ q) (h : p + q = 1) : rowsFor n p + rowsFor n q = n ↔ ∃ k : Nat, (n : Rat) * p = k := by
  have hsum : (n : Rat) * p + n * q = n := by rw [← mul_add, h, mul_one]
  constructor
  · intro hall
    have hcast : (rowsFor n p : Rat) + rowsFor n q = n := by exact_mod_cast hall
    exact ⟨rowsFor n p, by linarith [rowsFor_le n hp, rowsFor_le n hq]⟩
  · rintro ⟨k, hk⟩
    have hle : k ≤ n := by
      have : (k : Rat) ≤ n := by linarith [rowsFor_le n hq, (rowsFor n q).cast_nonneg (α := Rat)]
      exact_mod_cast this
    have hrest : (n : Rat) * q = (n - k : Nat) := by
      push_cast [hle]
      linarith
    rw [rowsFor_of_whole hk, rowsFor_of_whole hrest]
    omega

/-- The part of a share is what a slice gives, also where it is empty for want of a share. -/
theorem part_exact (hp : 0 ≤ p) (rows : List Row) (start : Nat) :
    (if (Share.exact p).isPositive then slice rows start ((start + rowsFor n p : Nat) : Int) else []) =
      (rows.drop start).take (rowsFor n p) := by
  by_cases hpos : 0 < p
  · rw [Share.isPositive, if_pos (decide_eq_true hpos), slice_natCast, Nat.add_sub_cancel_left]
  · obtain rfl : p = 0 := Rat.le_antisymm (Rat.not_lt.1 hpos) hp
    rw [rowsFor_zero]
    rfl

theorem split_exact (hp : 0 ≤ p) (hq : 0 ≤ q) (hr : 0 ≤ r) (rows : List Row) :
    Shares.split ⟨.exact p, .exact q, .exact r⟩ rows = .ok (rows.take (rowsFor rows.length p),
      (rows.drop (rowsFor rows.length p)).take (rowsFor rows.length q),
      if 0 < r then rows.drop (rowsFor rows.length p + rowsFor rows.length q) else []) := by
  have htest : ∀ i : Nat, slice rows i rows.length = rows.drop i := by
    intro i
    rw [slice_natCast, List.take_of_length_le (by simp)]
  have htrain := part_exact (n := rows.length) hp rows 0
  rw [Nat.zero_add] at htrain
  have hstart : (Share.exact p).stop rows.length 0 = .ok (rowsFor rows.length p : Int) := by
    rw [← Nat.zero_add (rowsFor rows.length p)]
    exact stop_exact hp 0
  rw [Shares.split]
  simp only [hstart, stop_exact hq, stop_exact hr, part_exact hq, htest, bind, Except.bind, pure, Except.pure]
  refine congrArg Except.ok (Prod.ext htrain (Prod.ext rfl ?_))
  simp only [Share.isPositive, decide_eq_true_eq]

/-- Put together, the parts are the first of the rows, and all of them if the test part has a share or no share is rounded. -/
theorem split_all_iff (hp : 0 ≤ p) (hq : 0 ≤ q) (hr : 0 ≤ r) (h : p + q + r = 1) (rows : List Row) :
    ∃ train valid test, Shares.split ⟨.exact p, .exact q, .exact r⟩ rows = .ok (train, valid, test) ∧
      train ++ valid ++ test <+: rows ∧ (train ++ valid ++ test = rows ↔ 0 < r ∨ ∃ k : Nat, (rows.length : Rat) * p = k) := by
  refine ⟨_, _, _, split_exact hp hq hr rows, ?_⟩
  rw [← List.take_add]
  by_cases hpos : 0 < r
  · simp [hpos]
  · obtain rfl : r = 0 := Rat.le_antisymm (Rat.not_lt.1 hpos) hr
    have hle := rowsFor_add_le (n := rows.length) hp hq (by linarith)
    rw [if_neg hpos, List.append_nil, List.take_eq_self_iff, or_iff_right hpos, ← rowsFor_add_eq_iff hp hq (by linarith)]
    exact ⟨List.take_prefix .., by omega⟩

end Cutting

/-! ## Filling the tables -/

section Filling

variable {inserts : String} {s : LoadState}

/-- What puts a part into its table: nothing if the part is empty. -/
def partInsertion (inserts table : String) (rows : List Row) : List Request :=
  if rows = [] then [] else [insertion ("insert into " ++ table ++ inserts) rows]

theorem insertRows_run (table : String) (rows : List Row) (h : s.accepts ("insert into " ++ table ++ inserts)) :
    insertRows (.text table) (.text inserts) (.list (rows.map .list)) s =
      .ok () { s with requests := s.requests ++ partInsertion inserts table rows } := by
  have hstatement : insertStatement (.text table) (.text inserts) = .ok ("insert into " ++ table ++ inserts) := rfl
  have hmembers : (Value.list (rows.map .list)).members = .ok (rows.map .list) := rfl
  rw [insertRows, run_lift_bind_of_ok hstatement, run_lift_bind_of_ok hmembers, partInsertion]
  cases rows with
  | nil => simp; rfl
  | cons row rows => exact executeMany_of_accepts h _

theorem insertParts_run {tables : List String} (h : ∀ t ∈ tables, s.accepts ("insert into " ++ t ++ inserts)) {parts : List (List Row)}
    (hlength : tables.length ≤ parts.length) : insertParts (.text inserts) (tables.map .text) parts s =
      .ok () { s with requests := s.requests ++ (List.zipWith (partInsertion inserts) tables parts).flatten } := by
  induction tables generalizing s parts with
  | nil => simp [insertParts]; rfl
  | cons t tables ih =>
    cases parts with
    | nil => simp at hlength
    | cons rows parts =>
      obtain ⟨hfirst, hrest⟩ := List.forall_mem_cons.1 h
      rw [List.map_cons, insertParts, run_bind_of_ok (insertRows_run t rows hfirst)]
      refine (ih (s := { s with requests := s.requests ++ partInsertion inserts t rows }) hrest (by simpa using hlength)).trans ?_
      simp

end Filling

/-- A shuffled batch goes into the first of four tables, and parts of it into the others, each row into one at most. That no row is
missing there depends on the test part: it takes what rounding leaves, but only if it has a share. -/
theorem loadShares_partition_iff {full train valid test inserts : String} {p q r : Rat} {batch : List Row} {s : LoadState}
    (hp : 0 ≤ p) (hq : 0 ≤ q) (hr : 0 ≤ r) (hsum : p + q + r = 1)
    (haccepts : ∀ t ∈ [full, train, valid, test], s.accepts ("insert into " ++ t ++ inserts)) :
    ∃ rows trainRows validRows testRows, rows.Perm (batch.map withoutEmpties) ∧
      loadShares (.ofTexts [full, train, valid, test]) (.text inserts) ⟨.exact p, .exact q, .exact r⟩ batch s =
        .ok () { s with requests := s.requests ++ (partInsertion inserts full rows ++ partInsertion inserts train trainRows ++
          partInsertion inserts valid validRows ++ partInsertion inserts test testRows) } ∧
      trainRows ++ validRows ++ testRows <+: rows ∧
      (trainRows ++ validRows ++ testRows = rows ↔ 0 < r ∨ ∃ k : Nat, (batch.length : Rat) * p = k) := by
  have hperm := shuffled_perm shuffleSeed (batch.map withoutEmpties)
  obtain ⟨trainRows, validRows, testRows, hsplit, hfirst, hall⟩ :=
    split_all_iff hp hq hr hsum (shuffled shuffleSeed (batch.map withoutEmpties))
  rw [hperm.length_eq, List.length_map] at hall
  refine ⟨_, trainRows, validRows, testRows, hperm, ?_, hfirst, hall⟩
  have hprepare : Shares.prepare ⟨.exact p, .exact q, .exact r⟩ batch =
      .ok [shuffled shuffleSeed (batch.map withoutEmpties), trainRows, validRows, testRows] := by
    rw [Shares.prepare, hsplit]
    rfl
  have hpositioned : (Value.ofTexts [full, train, valid, test]).positioned = .ok ([full, train, valid, test].map .text) := rfl
  rw [loadShares, run_lift_bind_of_ok hprepare, run_lift_bind_of_ok hpositioned, insertParts_run haccepts (by simp)]
  simp

def threeRows : List Row := [[.text "a"], [.text "b"], [.text "c"]]

/-- Of three rows that are halved without a test part one gets into no part. -/
theorem loadShares_partition_iff_halves : ∃ rows trainRows validRows testRows, rows.Perm (threeRows.map withoutEmpties) ∧
    loadShares (.ofTexts ["T0", "T1", "T2", "T3"]) (.text " V") ⟨.exact (1 / 2), .exact (1 / 2), .exact 0⟩ threeRows {} =
      .ok () { requests := partInsertion " V" "T0" rows ++ partInsertion " V" "T1" trainRows ++
        partInsertion " V" "T2" validRows ++ partInsertion " V" "T3" testRows } ∧
    trainRows ++ validRows ++ testRows <+: rows ∧ trainRows ++ validRows ++ testRows ≠ rows := by
  obtain ⟨rows, trainRows, validRows, testRows, hperm, hrun, hfirst, hall⟩ :=
    @loadShares_partition_iff "T0" "T1" "T2" "T3" " V" (1 / 2) (1 / 2) 0 threeRows {} (by norm_num) (by norm_num) (le_refl 0)
      (by norm_num) (fun _ _ => ⟨rfl, rfl⟩)
  refine ⟨rows, trainRows, validRows, testRows, hperm, hrun, hfirst, fun h => ?_⟩
  rcases hall.1 h with hpos | ⟨k, hk⟩
  · exact absurd hpos (lt_irrefl 0)
  · have hdouble : ((2 * k : Nat) : Rat) = (3 : Nat) := by
      push_cast
      rw [← hk]
      norm_num [threeRows]
    have : 2 * k = 3 := by exact_mod_cast hdouble
    omega

end TraceArtifacts.Loading
