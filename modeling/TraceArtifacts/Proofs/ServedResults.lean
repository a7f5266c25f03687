import TraceArtifacts.Proofs.PortNames

/-!
# Proofs: results on request

A result that is served is taken from the port with the name of its output, for every group of its element.
-/

namespace TraceArtifacts

namespace Graph

variable {s s' t : DraftState} {c : ElementContext} {e : Element} {o : OutputItem} {place : Place} {u : Unit} {groups item name : Value}
  {ops : List Value} {conns : String → List Value}

/-! ## The client of a result -/

/-- A client of results and the connection that leads to it from a port of an element. -/
structure Feeds (name : String) (sourcePort : Value) (client : Operator) (k : Connection) : Prop where
  label : client.label = .text "Result Client"
  source : processName (.text name) = .ok k.source
  sourcePort : k.sourcePort = sourcePort
  target : k.target = client.process
  targetPort : k.targetPort = .text "datain"

theorem resultOperators_feed {n : String} {sentPort path : Value} {r : List Operator × List Connection}
    (h : resultOperators (.text n) sentPort path = .ok r) : ∃ client ∈ r.1, ∃ k ∈ r.2, Feeds n sentPort client k := by
  simp only [resultOperators, Value.asText, bind_ok, pure_ok] at h
  obtain ⟨m, hm, client, hclient, server, -, interceptor, -, k, hk, k1, -, k2, -, k3, -, rfl⟩ := h
  cases hm
  refine ⟨client, .head _, k, .head _, ?_⟩
  simp only [scriptOperator, operatorFor, bind_ok, pure_ok] at hclient
  obtain ⟨_, ⟨process, hprocess, rfl⟩, rfl⟩ := hclient
  simp only [connect, bind_ok, pure_ok] at hk
  obtain ⟨source, hsource, target, htarget, rfl⟩ := hk
  exact ⟨rfl, hsource, rfl, ok_unique htarget hprocess, rfl⟩

def fedConnections (groups : Value) (k : Connection) (m : String) : List Value := if 0 < listed groups m then [k.toValue] else []

def Fed (name : String) (groups sourcePort : Value) (s : DraftState) : Prop :=
  ∃ client k, Feeds name sourcePort client k ∧ Holding [client.toEntry] (fedConnections groups k) s

theorem Holding.fed {k : Connection} (h : Holding ops (fedConnections groups k) s) {m : String} (hm : InGroup groups (.text m)) :
    k.toValue ∈ s.connections.listAt m := by
  have hfed := h.connections m
  rw [fedConnections, if_pos (listed_pos_iff.2 hm)] at hfed
  exact hfed List.mem_cons_self

theorem Fed.mono {n : String} {sourcePort : Value} (hs : Fed n groups sourcePort s)
    (h : ∀ ops conns, Holding ops conns s → Holding ops conns s') : Fed n groups sourcePort s' := by
  obtain ⟨client, k, hfeeds, hs⟩ := hs
  exact ⟨client, k, hfeeds, h _ _ hs⟩

def IsServed (settings : Settings) (e : Element) (o : OutputItem) : Prop :=
  (∃ category, o.toValue.entry "cat" = .ok category ∧ settings.isKind category .fitted = .ok true) ∧
    e.toValue.entry "function" ≠ .ok (.text "Score")

section Serving

variable {n : String} (hg : NamedGroups c.groups) (hc : c.identifier = .text n) (hfitted : c.isKind item .fitted = .ok true)
  (hscores : c.scores ≠ .ok true) (hname : item.entry "interface_name" = .ok name)
include hg hc hfitted hscores hname

theorem serveOutput_fed (hs : s.connections.isRecord = true) (h : serveOutput c item s = .ok u s') : Fed n c.groups name s' := by
  simp only [serveOutput, hfitted, hname, hc] at h
  obtain ⟨b, hb, h⟩ := run_lift_bind_ok.1 h
  cases hb
  obtain ⟨b, hb, h⟩ := run_lift_bind_ok.1 h
  cases b with
  | true => exact absurd hb hscores
  | false =>
    simp only [Bool.false_eq_true, if_false, run_parts] at h
    obtain ⟨_, -, _, -, sent, hsent, r, hr, _, t, hops, hlinks⟩ := h
    cases hsent
    obtain ⟨client, hclient, k, hk, hfeeds⟩ := resultOperators_feed hr
    obtain ⟨operators, happend, rfl⟩ := addOperators_run hops
    obtain ⟨connections, hadd, rfl⟩ := onConnections_ok hlinks
    obtain ⟨hrecord, hlist⟩ := addUnderAll_ok hg hadd hs
    refine ⟨client, k, hfeeds, hrecord, fun v hv => ?_, fun m v hv => ?_⟩
    · obtain rfl := List.mem_singleton.1 hv
      rw [toList_append happend]
      exact List.mem_append_right _ (List.mem_map.2 ⟨client, hclient, rfl⟩)
    · unfold fedConnections at hv
      split at hv
      · next hlisted =>
        obtain rfl := List.mem_singleton.1 hv
        rw [hlist]
        refine List.mem_append_right _ (List.mem_flatten.2 ⟨_, List.mem_replicate.2 ⟨by omega, rfl⟩, ?_⟩)
        exact List.mem_map.2 ⟨k, hk, rfl⟩
      · cases hv

theorem draftFreePort_fed (hserve : c.options.serveResults = true) {sentPort : Value} (hs : s.connections.isRecord = true)
    (h : draftFreePort c place item sentPort s = .ok u s') : Fed n c.groups name s' := by
  obtain ⟨s1, s2, hg1, hextras, hg2, -⟩ := draftFreePort_steps (N := True) h
  simp only [draftExtras, hserve, if_true] at hextras
  obtain ⟨_, t, hserved, htrack⟩ := run_bind_ok.1 hextras
  have ht := serveOutput_fed hg hc hfitted hscores hname (hg1.record trivial hs) hserved
  exact (ht.mono fun _ _ => (framed_holding hg).trackOutput sentPort item htrack).mono (hg2.holds trivial)

end Serving

theorem draftParts_fed {n : String} (hg : NamedGroups c.groups) (he : Draftable e) (hc : c.identifier = .text n)
    (hserve : c.options.serveResults = true) (ho : o ∈ e.outputs) (hfitted : c.isKind o.toValue .fitted = .ok true)
    (hscores : c.scores ≠ .ok true) (hs : s.connections.isRecord = true) (h : draftParts c place (partsOf e) s = .ok u s') :
    Fed n c.groups o.name s' := by
  have hg' : True → NamedGroups c.groups := fun _ => hg
  obtain ⟨s1, s2, hins, hbody, houts⟩ := draftParts_ok h
  have hs1 := (forM_grows (O := fun _ => []) (fun i _ s u s' hstep => draftInput_grows hg' hstep) hins).record trivial hs
  have hs2 := (forM_grows (fun item _ s u s' hstep => draftBody_grows (N := True) hstep) hbody).record trivial hs1
  have hlinks : ∀ p ∈ e.outputs.zipIdx, True → ∀ t, p.1 = .table t → ∀ k ∈ t.links, NamedGroups k.groups :=
    fun p hp _ t ht => he.2 t (ht ▸ List.fst_mem_of_mem_zipIdx hp)
  obtain ⟨i, hi⟩ := List.getElem?_of_mem ho
  have hmem : (o, i) ∈ e.outputs.zipIdx := List.mem_zipIdx_iff_getElem?.2 hi
  refine forM_run_brings (I := fun t => t.connections.isRecord = true) (x := (o, i))
    (fun p hp t v t' hrun ht => (draftOutput_grows hg' (hlinks p hp) hrun).1.record trivial ht)
    (fun p hp t v t' hrun ht => ht.mono ((draftOutput_grows hg' (hlinks p hp) hrun).1.holds trivial)) hmem (fun ht hrun => ?_) houts hs2
  obtain ⟨t1, links, sentPort, hg1, -, -, hfree⟩ := draftOutput_steps (hlinks (o, i) hmem) hrun
  have hname : o.toValue.entry "interface_name" = .ok o.name := by cases o <;> rfl
  exact draftFreePort_fed hg hc hfitted hscores hname hserve (hg1.record trivial ht) hfree

theorem draftElement_fed {settings : Settings} {options : GraphOptions} {i : Nat} (he : Draftable e) (hserve : options.serveResults = true)
    (h : draftElement settings options i e.toValue s = .ok u s') (ho : o ∈ e.outputs) (hserved : IsServed settings e o) :
    Fed e.name e.groups o.name s' := by
  obtain ⟨schema, label, t1, t2, ms, hrun, hoperator, -, hjoin⟩ := draftElement_steps h
  have hgroups := shownGroupsOf_element e
  have hshown := shownGroupsOf_ok hgroups
  rw [get_groups_element] at hshown
  have hg := hshown.1 he.1
  obtain ⟨⟨category, hcategory, hkind⟩, hscore⟩ := hserved
  have hparts := draftParts_fed hg he rfl hserve ho (bind_ok.2 ⟨category, hcategory, hkind⟩) (fun hscores => ?_)
    rfl hrun
  · obtain ⟨client, k, hfeeds, hholding⟩ := hparts.mono fun _ _ => (framed_holding hg).draftOperator label hoperator
    obtain ⟨graphs, rfl⟩ := joinGraphs_graphs hjoin
    refine ⟨client, k, hfeeds, hholding.record, hholding.operators, fun m => ?_⟩
    have hlisted := shownGroupsOf_listed hgroups m
    rw [get_groups_element] at hlisted
    rw [fedConnections, ← hlisted]
    exact hholding.connections m
  · obtain ⟨v, hv, hsame⟩ := bind_ok.1 hscores
    exact hscore (hv.trans (congrArg Except.ok (same_text_iff.1 (pure_ok.1 hsame))))

/-! ## The ports of served results -/

/-- The connection leads from the operator of an element to a client of one of its results, in each group of the element. -/
def Serves (e : Element) (o : OutputItem) (operator : Operator) (d : DraftState) (k : Connection) : Prop :=
  k.source = operator.process ∧ (∃ client, Feeds e.name o.name client k ∧ client.toEntry ∈ d.operators.toList) ∧
    ∀ m, InGroup e.groups (.text m) → k.toValue ∈ d.connections.listAt m

theorem mergesNothing_served : MergesNothing servedSession.settings := mergesNothing_of_entry rfl (by decide)

section Sample

variable {s : Session} {layers : Value} (hrun : ServedRun s layers e o)
include hrun

theorem servedRun_slashFree : ∀ x ∈ procedureNames layers, SlashFree x := by
  intro x hx
  rw [hrun.procedures] at hx
  rcases List.mem_pair.1 hx with rfl | rfl <;> exact ⟨by decide, by decide⟩

theorem servedRun_served : o ∈ e.outputs ∧ IsServed s.settings e o := by
  refine ⟨by rw [hrun.outputs]; exact .head _, bind_ok.1 hrun.fitted, fun hscore => ?_⟩
  have hfunction := hrun.function
  rw [hscore] at hfunction
  exact absurd (Option.some.inj hfunction) (by decide)

theorem servedRun_linked : ¬ ∃ o' ∈ e.outputs, o'.name = o.name ∧ linkCount o' = 0 := by
  rintro ⟨o', ho', -, hnone⟩
  rw [hrun.outputs, List.mem_singleton] at ho'
  exact hrun.linked (ho' ▸ hnone)

end Sample

end Graph

end TraceArtifacts
