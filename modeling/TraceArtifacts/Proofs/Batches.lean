import TraceArtifacts.Loading.Load
import TraceArtifacts.Proofs.Steps

/-!
# Proofs: batches of rows

While rows are read, the rows of earlier batches, those of the present one and those to come are as many as were announced.
-/

namespace TraceArtifacts.Loading

variable {α : Type}

/-- These are batches of the rows in order: none is empty or larger than a size, and no row is left out. -/
structure Covers (size : Int) (rows : List α) (bs : List (List α)) : Prop where
  flatten : bs.flatten = rows
  bounds : ∀ b ∈ bs, b ≠ [] ∧ (b.length : Int) ≤ size

theorem Covers.mono {size size' : Int} {rows : List α} {bs : List (List α)} (h : Covers size rows bs) (hle : size ≤ size') :
    Covers size' rows bs :=
  ⟨h.flatten, fun b hb => ⟨(h.bounds b hb).1, Int.le_trans (h.bounds b hb).2 hle⟩⟩

theorem batchesFrom_covers {total : Int} {rest : List α} : ∀ (size loaded : Int) (batch : List α),
    total - loaded = batch.length + rest.length → (batch.length : Int) < size → (rest = [] → batch = []) →
      Covers size (batch ++ rest) (batchesFrom total size loaded batch rest) := by
  induction rest with
  | nil =>
    intro size loaded batch _ _ hbatch
    rw [hbatch rfl]
    exact ⟨rfl, nofun⟩
  | cons row rest ih =>
    intro size loaded batch htotal hsize _
    rw [List.length_cons, Int.natCast_add, Int.natCast_one] at htotal
    obtain ⟨now, hnow⟩ : ∃ now, now = if total - loaded < size then total - loaded else size := ⟨_, rfl⟩
    have hle : now ≤ size := by rw [hnow]; split <;> omega
    have hroom : (batch.length : Int) + 1 ≤ now := by rw [hnow]; split <;> omega
    have hlength : ((batch ++ [row]).length : Int) = batch.length + 1 := by simp
    have hrows : batch ++ row :: rest = (batch ++ [row]) ++ rest := by simp
    refine Covers.mono ?_ hle
    rw [batchesFrom, ← hnow, if_pos (by omega), hrows]
    simp only [hlength]
    by_cases hfull : (batch.length : Int) + 1 = now
    · rw [if_pos hfull]
      have hrest : Covers now rest (batchesFrom total now (loaded + (batch.length + 1)) [] rest) := by
        have := ih now (loaded + (batch.length + 1)) [] (by simp; omega) (by simp; omega) fun _ => rfl
        rwa [List.nil_append] at this
      refine ⟨by rw [List.flatten_cons, hrest.flatten], List.forall_mem_cons.2 ⟨⟨by simp, by omega⟩, hrest.bounds⟩⟩
    · rw [if_neg hfull]
      refine ih now loaded _ (by omega) (by omega) fun hnil => ?_
      -- with no row to come the size has shrunk to what this batch has
      rw [hnil, List.length_nil] at htotal
      rw [hnow] at hfull hroom
      split at hfull <;> omega

def batchedState : LoadState where
  tree := ⟨[(["f"], .file "1\n2\n3")]⟩

/-! ## Chunks -/

theorem fromStart_natCast (length i : Nat) : fromStart length i = min i length := by
  rw [fromStart, if_neg (by omega), Int.toNat_natCast]

theorem slice_natCast (rows : List α) (i j : Nat) : slice rows i j = (rows.drop i).take (j - i) := by
  rw [slice, fromStart_natCast, fromStart_natCast]
  rcases Nat.le_total rows.length i with hi | hi
  · rw [Nat.min_eq_right hi, List.drop_length, List.drop_eq_nil_of_le hi, List.take_nil, List.take_nil]
  · rw [Nat.min_eq_left hi]
    rcases Nat.le_total j rows.length with hj | hj
    · rw [Nat.min_eq_left hj]
    · rw [Nat.min_eq_right hj, List.take_of_length_le (by simp), List.take_of_length_le (by simp; omega)]

theorem flatten_chunks (rows : List α) (size count : Nat) :
    ((List.range count).map fun i => (rows.drop (i * size)).take size).flatten = rows.take (count * size) := by
  induction count with
  | zero => simp
  | succ count ih =>
    rw [List.range_succ, List.map_append, List.flatten_append, ih, Nat.succ_mul, List.take_add]
    simp

theorem chunks_covers {size : Int} (hsize : 1 ≤ size) (rows : List α) : Covers size rows ((chunks size rows).map Prod.snd) := by
  obtain ⟨n, rfl⟩ := Int.eq_ofNat_of_zero_le (show 0 ≤ size by omega)
  have hslice : ∀ i : Nat, slice rows ((i : Int) * n) ((i : Int) * n + n) = (rows.drop (i * n)).take n := by
    intro i
    rw [← Int.natCast_mul, ← Int.natCast_add, slice_natCast, Nat.add_sub_cancel_left]
  have hchunks : (chunks n rows).map Prod.snd =
      ((List.range (rows.length / n + 3)).map fun i => (rows.drop (i * n)).take n).filter fun c => !c.isEmpty := by
    rw [chunks, ← Int.ofNat_tdiv, List.filter_map, List.map_map, List.filter_map]
    simp only [Function.comp_def, hslice]
    rfl
  rw [hchunks]
  constructor
  · have henough : rows.length ≤ (rows.length / n + 3) * n := by
      have := Nat.lt_div_mul_add (show 0 < n by omega) (a := rows.length)
      rw [Nat.add_mul]
      omega
    rw [List.flatten_filter_not_isEmpty, flatten_chunks, List.take_of_length_le henough]
  · intro b hb
    obtain ⟨hb, hne⟩ := List.mem_filter.1 hb
    obtain ⟨i, -, rfl⟩ := List.mem_map.1 hb
    exact ⟨by simpa using hne, Int.ofNat_le.2 (List.length_take_le ..)⟩

/-! ## Rows that are put into tables -/

section Inserting

variable {statement : String} {u : Unit} {s s' : LoadState}

/-- The request that puts rows into a table. -/
def insertion (statement : String) (rows : List Row) : Request := .executeMany statement (.list (rows.map .list))

def LoadState.accepts (s : LoadState) (statement : String) : Prop :=
  s.connected = true ∧ s.answers.refused.any (containsText statement) = false

theorem reach_of_connected (h : s.connected = true) : Loader.reach s = .ok () s := by
  rw [Loader.reach, run_get_bind, h]
  rfl

theorem executeMany_of_accepts (h : s.accepts statement) (rows : Value) :
    Loader.executeMany statement rows s = .ok () { s with requests := s.requests ++ [.executeMany statement rows] } := by
  rw [Loader.executeMany, Loader.ask, bind_assoc, run_bind_of_ok (reach_of_connected h.1)]
  change Loader.check statement _ = _
  rw [Loader.check, run_get_bind, if_neg (by simpa using h.2)]
  rfl

theorem accepts_of_executeMany {rows : Value} (h : Loader.executeMany statement rows s = .ok u s') : s.accepts statement := by
  obtain ⟨_, t, hask, hcheck⟩ := run_bind_ok.1 h
  obtain ⟨_, t', hreach, hmodify⟩ := run_bind_ok.1 hask
  cases hmodify
  have hconnected : s.connected = true := by
    rw [Loader.reach, run_get_bind] at hreach
    by_contra hc
    rw [if_pos (by simpa using hc)] at hreach
    exact run_throw_ok.1 hreach
  obtain ⟨-, rfl⟩ := EStateM.Result.ok.inj ((reach_of_connected hconnected).symm.trans hreach)
  refine ⟨hconnected, Bool.eq_false_iff.2 fun hrefused => ?_⟩
  rw [Loader.check, run_get_bind, if_pos hrefused] at hcheck
  exact run_throw_ok.1 hcheck

/-- One turn of filling a table: a chunk is put in and counted. -/
def insertChunk (table : Value) (statement : String) (c : Nat × List Row) : Loader Unit := do
  Loader.executeMany statement (.list (c.2.map .list))
  Loader.print ("Rows inserted into " ++ table.display ++ " in chunk " ++ toString c.1 ++ ": " ++ toString c.2.length)

theorem insertChunk_of_accepts (h : s.accepts statement) (table : Value) (c : Nat × List Row) :
    ∃ t, insertChunk table statement c s = .ok () t ∧ t.accepts statement ∧ t.requests = s.requests ++ [insertion statement c.2] := by
  exact ⟨_, run_bind_of_ok (executeMany_of_accepts h _), h, rfl⟩

theorem insertChunks_of_accepts (table : Value) {cs : List (Nat × List Row)} (h : s.accepts statement) :
    ∃ t, cs.forM (insertChunk table statement) s = .ok () t ∧ t.requests = s.requests ++ (cs.map Prod.snd).map (insertion statement) := by
  induction cs generalizing s with
  | nil => exact ⟨s, rfl, by simp⟩
  | cons c cs ih =>
    obtain ⟨t, hrun, ht, hrequests⟩ := insertChunk_of_accepts h table c
    obtain ⟨s', hrest, hmore⟩ := ih ht
    exact ⟨s', forM_cons_ok.2 ⟨(), t, hrun, hrest⟩, by simp [hmore, hrequests]⟩

end Inserting

/-- Rows from a file are put into a table in chunks that cover them in their order, none empty and none larger than asked for. Filling
ends if the database takes the statement, and whenever it ends these were the requests. -/
theorem loadDescribed_chunks {columns inserts description table path : Value} {statement : String} {rows : List Row} {size : Int}
    {s t t' : LoadState} (hsize : 1 ≤ size) (htable : description.item (.int 0) = .ok table)
    (hpath : description.item (.int 1) = .ok path) (hmade : recreateTable table columns s = .ok () t)
    (hrows : fileRows path t = .ok rows t') (hstatement : insertStatement table inserts = .ok statement) :
    ∃ bs, Covers size rows bs ∧ (t'.accepts statement → ∃ s', loadDescribed columns inserts (.int size) description s = .ok () s') ∧
      ∀ s', loadDescribed columns inserts (.int size) description s = .ok () s' →
        s'.requests = t'.requests ++ bs.map (insertion statement) := by
  have hchunks : chunksFor (.int size) rows = .ok (chunks size rows) := by
    show (if size = 0 then _ else _) = _
    rw [if_neg (by omega)]
    rfl
  obtain ⟨told, htold⟩ : ∃ told, loadDescribed columns inserts (.int size) description s =
      (chunks size rows).forM (insertChunk table statement) { t' with printed := told } := by
    refine ⟨t'.printed ++ ("Rows to load is " ++ toString rows.length) ++ "\n", ?_⟩
    rw [loadDescribed, run_lift_bind_of_ok htable, run_bind_of_ok hmade, run_lift_bind_of_ok hpath, run_bind_of_ok hrows,
      run_lift_bind_of_ok hstatement]
    exact run_lift_bind_of_ok hchunks
  rw [htold]
  refine ⟨_, chunks_covers hsize rows, fun haccepts => ?_, fun s' hended => ?_⟩
  · obtain ⟨s', hrun, -⟩ := insertChunks_of_accepts table (s := { t' with printed := told }) haccepts
    exact ⟨s', hrun⟩
  · -- what was asked first was taken, so all was
    cases hcs : chunks size rows with
    | nil =>
      rw [hcs] at hended
      cases hended
      simp
    | cons c cs =>
      rw [hcs] at hended
      obtain ⟨_, u, hfirst, -⟩ := forM_cons_ok.1 hended
      obtain ⟨_, _, hmany, -⟩ := run_bind_ok.1 hfirst
      obtain ⟨s'', hrun, hrequests⟩ := insertChunks_of_accepts table (accepts_of_executeMany hmany)
      obtain ⟨-, rfl⟩ := EStateM.Result.ok.inj (hended.symm.trans hrun)
      exact hrequests

theorem loadDescribed_chunks_sample : ∃ rows bs s', rows.length = 3 ∧ Covers 2 rows bs ∧
    loadDescribed (.text "(X)") (.text " V") (.int 2) (.ofTexts ["T", "f"]) batchedState = .ok () s' ∧
    s'.requests = [.execute "DROP TABLE T", .execute "CREATE COLUMN TABLE T(X)"] ++ bs.map (insertion "insert into T V") := by
  obtain ⟨t, hmade, ht, hrows, haccepts⟩ : ∃ t, recreateTable (.text "T") (.text "(X)") batchedState = .ok () t ∧
      t.requests = [.execute "DROP TABLE T", .execute "CREATE COLUMN TABLE T(X)"] ∧
      fileRows (.text "f") t = .ok [[.text "1"], [.text "2"], [.text "3"]] t ∧ t.accepts "insert into T V" :=
    ⟨_, rfl, rfl, rfl, rfl, rfl⟩
  have htable : (Value.ofTexts ["T", "f"]).item (.int 0) = .ok (.text "T") := rfl
  have hstatement : insertStatement (.text "T") (.text " V") = .ok "insert into T V" := rfl
  obtain ⟨bs, hbs, hends, hrequests⟩ := loadDescribed_chunks (show (1 : Int) ≤ 2 by decide) htable rfl hmade hrows hstatement
  obtain ⟨s', hs'⟩ := hends haccepts
  exact ⟨_, bs, s', rfl, hbs, hs', ht ▸ hrequests s' hs'⟩

end TraceArtifacts.Loading
