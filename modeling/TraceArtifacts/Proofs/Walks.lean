import TraceArtifacts.Proofs.Layers
import Mathlib.Data.Set.Card

/-!
# Proofs: walks between procedures

Relations are the edges of a graph whose vertices are procedures; several edges may join the same two procedures.
-/

namespace TraceArtifacts

variable {w : List Nat} {i n : Nat} {x y z : ProcedureName}

abbrev Edges := List (ProcedureName × ProcedureName)

inductive Walk (edges : Edges) : ProcedureName → List Nat → ProcedureName → Prop
  | nil (x : ProcedureName) : Walk edges x [] x
  | cons {x y z : ProcedureName} {i : Nat} {w : List Nat} (h : edges[i]? = some (x, y))
      (hw : Walk edges y w z) : Walk edges x (i :: w) z

def Acyclic (edges : Edges) : Prop := ∀ x w, Walk edges x w x → w = []

def CycleFrom (edges : Edges) (x : ProcedureName) : Prop := ∃ y w v, Walk edges x w y ∧ Walk edges y v y ∧ v ≠ []

noncomputable def walkCount (edges : Edges) (x y : ProcedureName) : Nat := {w | Walk edges x w y}.ncard

variable {edges : Edges}

theorem acyclic_of_rank (rank : ProcedureName → Nat) (h : ∀ e ∈ edges, rank e.1 < rank e.2) : Acyclic edges := by
  have hwalk : ∀ {x w y}, Walk edges x w y → rank x + w.length ≤ rank y := by
    intro x w y hw
    induction hw with
    | nil => exact Nat.le_refl _
    | @cons x y z i w hi _ ih =>
      have hlt : rank x < rank y := h _ (List.mem_of_getElem? hi)
      rw [List.length_cons]
      omega
  intro x w hw
  have := hwalk hw
  exact List.eq_nil_of_length_eq_zero (by omega)

/-! ## The length of walks -/

theorem Acyclic.not_cycleFrom (h : Acyclic edges) (x : ProcedureName) : ¬ CycleFrom edges x := by
  rintro ⟨y, w, v, -, hv, hne⟩
  exact hne (h y v hv)

theorem CycleFrom.cons (hi : edges[i]? = some (x, y)) (h : CycleFrom edges y) : CycleFrom edges x := by
  obtain ⟨z, w, v, hw, hv, hne⟩ := h
  exact ⟨z, i :: w, v, .cons hi hw, hv, hne⟩

theorem Walk.passes {vs : List ProcedureName} (hvs : ∀ e ∈ edges, e.2 ∈ vs) (h : Walk edges x w y) (ha : ¬ CycleFrom edges x)
    (hx : x ∈ vs) :
    ∃ us : List ProcedureName, us.length = w.length + 1 ∧ us.Nodup ∧ ∀ u ∈ us, u ∈ vs ∧ ∃ w', Walk edges x w' u := by
  induction h with
  | nil x => exact ⟨[x], rfl, List.nodup_singleton x, fun u hu => by
      obtain rfl := List.mem_singleton.1 hu
      exact ⟨hx, [], .nil u⟩⟩
  | @cons x y z i w hi _ ih =>
    obtain ⟨us, hlen, hnd, hus⟩ := ih (fun h => ha (h.cons hi)) (hvs _ (List.mem_of_getElem? hi))
    refine ⟨x :: us, by simp [hlen], List.nodup_cons.2 ⟨fun hmem => ?_, hnd⟩, fun u hu => ?_⟩
    -- a second visit would close a cycle
    · obtain ⟨-, w', hw'⟩ := hus x hmem
      exact ha ⟨x, [], i :: w', .nil x, .cons hi hw', List.cons_ne_nil _ _⟩
    · rcases List.mem_cons.1 hu with rfl | hu
      · exact ⟨hx, [], .nil u⟩
      · obtain ⟨huv, w', hw'⟩ := hus u hu
        exact ⟨huv, i :: w', .cons hi hw'⟩

theorem Walk.length_lt {vs : List ProcedureName} (hvs : ∀ e ∈ edges, e.2 ∈ vs) (h : Walk edges x w y) (ha : ¬ CycleFrom edges x)
    (hx : x ∈ vs) : w.length < vs.length := by
  obtain ⟨us, hlen, hnd, hus⟩ := h.passes hvs ha hx
  have hle : us.length ≤ vs.length := (hnd.subperm fun u hu => (hus u hu).1).length_le
  omega

/-! ## Searching along every edge -/

def nexts (edges : Edges) (x : ProcedureName) : List ProcedureName :=
  (edges.filter fun e => e.1 == x).map Prod.snd

def visits (edges : Edges) : Nat → ProcedureName → List ProcedureName
  | 0, _ => []
  | n + 1, x => x :: (nexts edges x).flatMap (visits edges n)

def exits (edges : Edges) (x : ProcedureName) : List (Nat × ProcedureName) :=
  (edges.zipIdx.filter fun p => p.1.1 == x).map fun p => (p.2, p.1.2)

def trips (edges : Edges) : Nat → ProcedureName → List (List Nat × ProcedureName)
  | 0, _ => []
  | n + 1, x => ([], x) :: (exits edges x).flatMap fun e => (trips edges n e.2).map fun t => (e.1 :: t.1, t.2)

theorem mem_exits : (i, y) ∈ exits edges x ↔ edges[i]? = some (x, y) := by
  simp only [exits, List.mem_map, List.mem_filter, List.mem_zipIdx_iff_getElem?, beq_iff_eq]
  constructor
  · rintro ⟨⟨⟨x', y'⟩, j⟩, ⟨h, rfl⟩, he⟩
    cases he
    exact h
  · intro h
    exact ⟨((x, y), i), ⟨h, rfl⟩, rfl⟩

theorem exits_snd (edges : Edges) (x : ProcedureName) : (exits edges x).map Prod.snd = nexts edges x := by
  have hfst : (edges.zipIdx.filter fun p => p.1.1 == x).map Prod.fst = edges.filter fun e => e.1 == x := by
    have h := (List.filter_map (f := Prod.fst) (p := fun e : ProcedureName × ProcedureName => e.1 == x) (l := edges.zipIdx)).symm
    rw [List.zipIdx_map_fst] at h
    exact h
  rw [exits, nexts, ← hfst, List.map_map, List.map_map]
  rfl

theorem mem_nexts : y ∈ nexts edges x ↔ ∃ i : Nat, edges[i]? = some (x, y) := by
  rw [← exits_snd, List.mem_map]
  constructor
  · rintro ⟨⟨i, y'⟩, h, rfl⟩
    exact ⟨i, mem_exits.1 h⟩
  · rintro ⟨i, h⟩
    exact ⟨(i, y), mem_exits.2 h, rfl⟩

theorem exits_pairwise (edges : Edges) (x : ProcedureName) : (exits edges x).Pairwise fun e e' => e.1 ≠ e'.1 := by
  have hnd : (edges.zipIdx.map Prod.snd).Nodup := by
    rw [List.zipIdx_map_snd]
    exact List.nodup_range'
  have hsub : ((exits edges x).map Prod.fst).Sublist (edges.zipIdx.map Prod.snd) := by
    rw [exits, List.map_map]
    exact List.filter_sublist.map Prod.snd
  exact List.pairwise_map.1 (hnd.sublist hsub)

theorem visits_eq_trips (n : Nat) (x : ProcedureName) : visits edges n x = (trips edges n x).map Prod.snd := by
  induction n generalizing x with
  | zero => rfl
  | succ n ih =>
    rw [visits, trips, List.map_cons, List.map_flatMap, ← exits_snd, List.flatMap_map]
    congr 2
    funext e
    rw [ih, List.map_map]
    rfl

theorem mem_trips : (w, z) ∈ trips edges n x ↔ Walk edges x w z ∧ w.length < n := by
  induction n generalizing x w with
  | zero => simp [trips]
  | succ n ih =>
    simp only [trips, List.mem_cons, List.mem_flatMap, List.mem_map, Prod.mk.injEq]
    constructor
    · rintro (⟨rfl, rfl⟩ | ⟨⟨i, y⟩, he, ⟨w', z'⟩, ht, rfl, rfl⟩)
      · exact ⟨.nil _, Nat.succ_pos n⟩
      · obtain ⟨hw, hlen⟩ := ih.1 ht
        exact ⟨.cons (mem_exits.1 he) hw, Nat.succ_lt_succ hlen⟩
    · rintro ⟨hw, hlen⟩
      cases hw with
      | nil => exact .inl ⟨rfl, rfl⟩
      | @cons _ y _ i w hi hw =>
        exact .inr ⟨(i, y), mem_exits.2 hi, (w, z), ih.2 ⟨hw, Nat.lt_of_succ_lt_succ hlen⟩, rfl, rfl⟩

theorem trips_nodup (n : Nat) (x : ProcedureName) : (trips edges n x).Nodup := by
  induction n generalizing x with
  | zero => exact List.nodup_nil
  | succ n ih =>
    refine List.nodup_cons.2 ⟨fun h => ?_, List.nodup_flatMap.2 ⟨fun e _ => ?_, ?_⟩⟩
    · obtain ⟨e, -, h⟩ := List.mem_flatMap.1 h
      obtain ⟨t, -, h⟩ := List.mem_map.1 h
      simp at h
    · refine (ih e.2).map fun t t' h => ?_
      obtain ⟨h1, h2⟩ := Prod.mk.inj h
      exact Prod.ext (List.cons.inj h1).2 h2
    -- walks that start with different edges are different
    · refine (exits_pairwise edges x).imp fun {e e'} hne t ht ht' => ?_
      obtain ⟨u, -, rfl⟩ := List.mem_map.1 ht
      obtain ⟨u', -, h⟩ := List.mem_map.1 ht'
      exact hne (List.cons.inj (Prod.mk.inj h).1).1.symm

theorem count_visits (hn : ∀ {w z}, Walk edges x w z → w.length < n) (z : ProcedureName) :
    (visits edges n x).count z = walkCount edges x z := by
  let ws := ((trips edges n x).filter fun t => t.2 == z).map Prod.fst
  have hmem : ∀ w, w ∈ ws ↔ Walk edges x w z := by
    intro w
    simp only [ws, List.mem_map, List.mem_filter, beq_iff_eq]
    constructor
    · rintro ⟨⟨w', z'⟩, ⟨ht, rfl⟩, rfl⟩
      exact (mem_trips.1 ht).1
    · intro hw
      exact ⟨(w, z), ⟨mem_trips.2 ⟨hw, hn hw⟩, rfl⟩, rfl⟩
  have hnd : ws.Nodup := by
    refine List.Nodup.map_on (fun t ht t' ht' h => Prod.ext h ?_) ((trips_nodup n x).filter _)
    rw [beq_iff_eq.1 (List.mem_filter.1 ht).2, beq_iff_eq.1 (List.mem_filter.1 ht').2]
  have hset : {w | Walk edges x w z} = (ws.toFinset : Set (List Nat)) := by
    ext w
    simp [hmem]
  rw [walkCount, hset, Set.ncard_coe_finset, List.toFinset_card_of_nodup hnd, visits_eq_trips,
    List.length_map, ← List.countP_eq_length_filter, List.count, List.countP_map]
  rfl

theorem count_nexts_visits (ha : Acyclic edges) (hn : ∀ {w z}, Walk edges x w z → w.length < n + 1) (z : ProcedureName) :
    ((nexts edges x).flatMap (visits edges n)).count z = if z = x then 0 else walkCount edges x z := by
  have h := count_visits hn z
  rw [visits] at h
  split_ifs with hz
  · subst hz
    have hstay : {w | Walk edges z w z} = {[]} := by
      ext w
      exact ⟨fun hw => ha z w hw, fun hw => hw ▸ .nil z⟩
    rw [walkCount, hstay, Set.ncard_singleton, List.count_cons_self] at h
    omega
  · rwa [List.count_cons_of_ne (Ne.symm hz)] at h

/-! ## The other direction -/

theorem Walk.snoc (h : Walk edges x w y) (hi : edges[i]? = some (y, z)) : Walk edges x (w ++ [i]) z := by
  induction h with
  | nil => exact .cons hi (.nil z)
  | cons hj _ ih => exact .cons hj (ih hi)

theorem Walk.swap (h : Walk edges x w y) : Walk (edges.map Prod.swap) y w.reverse x := by
  induction h with
  | nil x => exact .nil x
  | cons hi _ ih =>
    rw [List.reverse_cons]
    exact ih.snoc (by rw [List.getElem?_map, hi]; rfl)

theorem walk_swap_iff : Walk (edges.map Prod.swap) x w y ↔ Walk edges y w.reverse x := by
  constructor
  · intro h
    have := h.swap
    rwa [List.map_map, Prod.swap_swap_eq, List.map_id] at this
  · intro h
    have := h.swap
    rwa [List.reverse_reverse] at this

theorem Acyclic.swap (h : Acyclic edges) : Acyclic (edges.map Prod.swap) := by
  intro x w hw
  exact List.reverse_eq_nil_iff.1 (h x _ (walk_swap_iff.1 hw))

theorem walkCount_swap (x y : ProcedureName) : walkCount (edges.map Prod.swap) x y = walkCount edges y x := by
  have himage : {w | Walk (edges.map Prod.swap) x w y} = List.reverse '' {w | Walk edges y w x} := by
    ext w
    refine walk_swap_iff.trans ⟨fun h => ⟨w.reverse, h, List.reverse_reverse w⟩, ?_⟩
    rintro ⟨v, hv, rfl⟩
    rwa [List.reverse_reverse]
  rw [walkCount, walkCount, himage, Set.ncard_image_of_injective _ List.reverse_injective]

end TraceArtifacts
