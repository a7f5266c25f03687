import TraceArtifacts.Proofs.GroupCounts

/-!
# Proofs: chains without an end

The chains of a group are followed without keeping track of where they have been.
-/

namespace TraceArtifacts

variable {s : GroupState} {x : ProcedureName}

theorem CycleFrom.next {edges : Edges} (h : CycleFrom edges x) : ∃ y ∈ nexts edges x, CycleFrom edges y := by
  obtain ⟨y, w, v, hw, hv, hne⟩ := h
  cases hw with
  | nil =>
    cases hv with
    | nil => exact absurd rfl hne
    | cons hi hv' => exact ⟨_, mem_nexts.2 ⟨_, hi⟩, x, _, _, hv', .cons hi hv', hne⟩
  | cons hi hw' => exact ⟨_, mem_nexts.2 ⟨_, hi⟩, y, _, v, hw', hv, hne⟩

/-! ## Steps that may be cut -/

def Endless (layers : Value) (step : GroupStep Unit) : Prop :=
  ∀ s, Ready layers s.layers → ∃ s', step s = .error .endlessChain s'

def EndsOrCut (layers : Value) (step : GroupStep Unit) : Prop :=
  ∀ s, Ready layers s.layers → (∃ s', step s = .ok () s' ∧ Ready layers s'.layers) ∨ ∃ s', step s = .error .endlessChain s'

section Steps

variable {layers : Value} {step next : GroupStep Unit}

theorem Endless.endsOrCut (h : Endless layers step) : EndsOrCut layers step := fun s hs => .inr (h s hs)

theorem Endless.bind (h : Endless layers step) (next : Unit → GroupStep Unit) : Endless layers (step >>= next) := by
  intro s hs
  obtain ⟨s', hs'⟩ := h s hs
  exact ⟨s', run_bind_of_error hs'⟩

theorem EndsOrCut.bind (h : EndsOrCut layers step) (hnext : EndsOrCut layers next) : EndsOrCut layers (step >>= fun _ => next) := by
  intro s hs
  rcases h s hs with ⟨t, ht, hready⟩ | ⟨s', hs'⟩
  · rw [run_bind_of_ok ht]
    exact hnext t hready
  · exact .inr ⟨s', run_bind_of_error hs'⟩

theorem EndsOrCut.bind_endless (h : EndsOrCut layers step) (hnext : Endless layers next) : Endless layers (step >>= fun _ => next) := by
  intro s hs
  rcases h s hs with ⟨t, ht, hready⟩ | ⟨s', hs'⟩
  · rw [run_bind_of_ok ht]
    exact hnext t hready
  · exact ⟨s', run_bind_of_error hs'⟩

theorem endsOrCut_forM {f : α → GroupStep Unit} {xs : List α} (h : ∀ x ∈ xs, EndsOrCut layers (f x)) : EndsOrCut layers (xs.forM f) := by
  induction xs with
  | nil => exact fun s hs => .inl ⟨s, rfl, hs⟩
  | cons x xs ih => exact (h x List.mem_cons_self).bind (ih fun y hy => h y (.tail _ hy))

theorem endless_forM {f : α → GroupStep Unit} {xs : List α} (h : ∀ x ∈ xs, EndsOrCut layers (f x)) {x : α} (hx : x ∈ xs)
    (hcut : Endless layers (f x)) : Endless layers (xs.forM f) := by
  induction xs with
  | nil => cases hx
  | cons y ys ih =>
    rcases List.mem_cons.1 hx with rfl | hx
    · exact hcut.bind _
    · exact (h y List.mem_cons_self).bind_endless (ih (fun z hz => h z (.tail _ hz)) hx)

end Steps

/-! ## Chains -/

section Chains

variable {layers : Value} {relations : List Relation} {kind : GroupKind} {grp : Group}

theorem links_cut {d : Direction} {ks : List Link} {f : Link → GroupStep Unit} (hks : LeadTo layers (nexts (edgesAlong d relations) x) ks)
    (h : ∀ (k : Link) y, k.path = .text (procedurePath y) → y ∈ procedureNames layers →
      EndsOrCut layers (f k) ∧ (CycleFrom (edgesAlong d relations) y → Endless layers (f k))) :
    EndsOrCut layers (ks.forM f) ∧ (CycleFrom (edgesAlong d relations) x → Endless layers (ks.forM f)) := by
  have hall : ∀ k ∈ ks, EndsOrCut layers (f k) := by
    intro k hk
    obtain ⟨y, -, hpath, hy⟩ := forall₂_mem_right hks hk
    exact (h k y hpath hy).1
  refine ⟨endsOrCut_forM hall, fun hcycle => ?_⟩
  obtain ⟨y, hnext, hcycle⟩ := hcycle.next
  obtain ⟨k, hk, hpath, hy⟩ := forall₂_mem_left hks hnext
  exact endless_forM hall hk ((h k y hpath hy).2 hcycle)

theorem walkChain_cut (hg : Groupable layers relations) (hkind : grp.kind = .text kind.mark) (d : Direction) (n : Nat)
    (hx : x ∈ procedureNames layers) :
    EndsOrCut layers (walkChain d grp n (.text (procedurePath x))) ∧
      (CycleFrom (edgesAlong d relations) x → Endless layers (walkChain d grp n (.text (procedurePath x)))) := by
  induction n generalizing x with
  | zero =>
    have hcut : Endless layers (walkChain d grp 0 (.text (procedurePath x))) := fun s _ => ⟨s, rfl⟩
    exact ⟨hcut.endsOrCut, fun _ => hcut⟩
  | succ n ih =>
    -- the procedure is taken in, and its links are followed from there
    have hstep : ∀ s, Ready layers s.layers → ∃ t ks, Ready layers t.layers ∧
        walkChain d grp (n + 1) (.text (procedurePath x)) s = ks.forM (fun k => walkChain d grp n k.path) t ∧
        LeadTo layers (nexts (edgesAlong d relations) x) ks := by
      intro s hs
      obtain ⟨t, ht, htake⟩ := adding_takeIn hg hx hkind s hs
      obtain ⟨ks, hks, hpaths⟩ := links_run hg htake.ready d x
      have haddress : Address.ofPath (.text (procedurePath x)) = .ok (addressOf x) := ofPath_procedurePath.2 ⟨hg.slashFree x hx, rfl⟩
      refine ⟨t, ks, htake.ready, ?_, hpaths⟩
      rw [walkChain, haddress]
      show (takeIn grp (addressOf x) >>= fun _ => _) s = _
      rw [run_bind_of_ok ht]
      show (liftM (links t.layers d (.text x.1) (.text x.2)) >>= fun next => _ : GroupStep Unit) t = _
      rw [hks]
      rfl
    have hlinks : ∀ {ks : List Link}, LeadTo layers (nexts (edgesAlong d relations) x) ks → _ := fun hks =>
      links_cut (f := fun k => walkChain d grp n k.path) hks fun k y hpath hy => hpath ▸ ih hy
    constructor
    · intro s hs
      obtain ⟨t, ks, ht, hrun, hks⟩ := hstep s hs
      rw [hrun]
      exact (hlinks hks).1 t ht
    · intro hcycle s hs
      obtain ⟨t, ks, ht, hrun, hks⟩ := hstep s hs
      rw [hrun]
      exact (hlinks hks).2 hcycle t ht

/-! ## Groups -/

/-- A group is complete at some depth just if no cycle can be reached, and then it is at the depth where groups are cut. Otherwise it is
cut at every depth. -/
theorem walkGroup_ends_iff (hg : Groupable layers relations) (hkind : grp.kind = .text kind.mark) {x : ProcedureName}
    (hx : x ∈ procedureNames layers) {s : GroupState} (hs : Ready layers s.layers) :
    ((∃ n s', walkGroupWithin n grp (.text x.1) (.text x.2) s = .ok () s') ↔ ∀ d, ¬ CycleFrom (edgesAlong d relations) x) ∧
    ((∃ s', walkGroup grp (.text x.1) (.text x.2) s = .ok () s') ↔ ∀ d, ¬ CycleFrom (edgesAlong d relations) x) ∧
    ((∃ d, CycleFrom (edgesAlong d relations) x) →
      ∀ n, ∃ s', walkGroupWithin n grp (.text x.1) (.text x.2) s = .error .endlessChain s') := by
  obtain ⟨t, before, after, ⟨ht, -⟩, hin, hout, hrun, hgroup⟩ := walkGroupWithin_run grp hg hx hs
  have hcut : ∀ d, CycleFrom (edgesAlong d relations) x →
      ∀ n, ∃ s', walkGroupWithin n grp (.text x.1) (.text x.2) s = .error .endlessChain s' := by
    intro d hcycle n
    have hbefore := links_cut (f := fun k => walkChain .incoming grp n k.path) hin fun k y hpath hy =>
      hpath ▸ walkChain_cut hg hkind .incoming n hy
    have hafter := links_cut (f := fun k => walkChain .outgoing grp n k.path) hout fun k y hpath hy =>
      hpath ▸ walkChain_cut hg hkind .outgoing n hy
    rw [hrun]
    cases d with
    | incoming => exact (hbefore.2 hcycle).bind _ t ht
    | outgoing => exact hbefore.1.bind_endless (hafter.2 hcycle) t ht
  have hends : (∀ d, ¬ CycleFrom (edgesAlong d relations) x) → ∃ s', walkGroup grp (.text x.1) (.text x.2) s = .ok () s' := by
    intro hnone
    obtain ⟨s', hs', -⟩ := adding_walkGroup hg hkind hx hnone s hs
    exact ⟨s', hs'⟩
  have hback : (∃ n s', walkGroupWithin n grp (.text x.1) (.text x.2) s = .ok () s') → ∀ d, ¬ CycleFrom (edgesAlong d relations) x := by
    rintro ⟨n, s', hs'⟩ d hcycle
    obtain ⟨s'', hs''⟩ := hcut d hcycle n
    rw [hs''] at hs'
    cases hs'
  refine ⟨⟨hback, fun hnone => ?_⟩, ⟨fun ⟨s', hs'⟩ => ?_, hends⟩, fun ⟨d, hcycle⟩ => hcut d hcycle⟩
  · obtain ⟨s', hs'⟩ := hends hnone
    exact ⟨_, s', hgroup ▸ hs'⟩
  · exact hback ⟨_, s', hgroup ▸ hs'⟩

end Chains

theorem walkGroup_ends_sample : ∃ n s', walkGroupWithin n (.named "fit" "Forest_Fit" (identifier 0)) (.text "Forest") (.text "Fit")
    { layers := preparedLayers, nextId := 0 } = .ok () s' := by
  have hkind : (Group.named "fit" "Forest_Fit" (identifier 0)).kind = .text GroupKind.fit.mark := rfl
  have hforest : ("Forest", "Fit") ∈ procedureNames preparedLayers := by decide
  exact (walkGroup_ends_iff preparedLayers_groupable hkind hforest preparedLayers_groupable.ready).1.2 fun d =>
    (acyclic_edgesAlong preparedRelations_acyclic d).not_cycleFrom _

end TraceArtifacts
