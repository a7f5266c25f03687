import TraceArtifacts.Graph.Generate
import TraceArtifacts.Proofs.Relations

/-!
# Proofs: what further operators leave alone

Operators for models, metrics and results come with connections in the groups of their element, and the graphs note which operator
ends them.
-/

namespace TraceArtifacts

namespace Graph

variable {J : DraftState → Prop} {s s' : DraftState} {c : ElementContext} {ms ops : List Value} {conns : String → List Value}
  {m n : String} {u : Unit} {groups item v w : Value}

/-! ## Connections by group -/

def InGroup (groups name : Value) : Prop :=
  ∃ ms, groups.members = .ok ms ∧ ∃ m ∈ ms, m.entry "identifier" = .ok name

def NamedGroups (groups : Value) : Prop :=
  ∀ ms, groups.members = .ok ms → ∀ m ∈ ms, ∃ n, m.entry "identifier" = .ok (.text n)

def listed (groups : Value) (n : String) : Nat :=
  (groups.members.toOption.getD []).countP fun m => (m.get "identifier").same (.text n)

theorem entry_of_get_text {k : String} (h : v.get k .null = .text n) : v.entry k = .ok (.text n) := by
  cases v with
  | object fs =>
    rw [Value.get_object] at h
    rw [Value.entry_object]
    cases hl : fs.lookup k with
    | none => simp [hl] at h
    | some w =>
      rw [hl] at h
      exact congrArg Except.ok h
  | _ => cases h

theorem listed_eq (h : groups.members = .ok ms) (n : String) :
    listed groups n = ms.countP fun m => (m.get "identifier").same (.text n) := by
  rw [listed, h]
  rfl

theorem listed_pos_iff : 0 < listed groups n ↔ InGroup groups (.text n) := by
  cases h : groups.members with
  | error e => simp [listed, InGroup, h, Except.toOption]
  | ok ms =>
    rw [listed_eq h, List.countP_pos_iff]
    constructor
    · rintro ⟨m, hm, hn⟩
      exact ⟨ms, h, m, hm, entry_of_get_text (same_text_iff.1 hn)⟩
    · rintro ⟨ms', hms, m, hm, hn⟩
      obtain rfl := ok_unique h hms
      exact ⟨m, hm, same_text_iff.2 (Value.get_of_entry hn _)⟩

theorem same_identifier (h : item.entry "identifier" = .ok (.text m)) (n : String) :
    (item.get "identifier").same (.text n) = decide (n = m) := by
  rw [Value.get_of_entry h, Bool.eq_iff_iff, same_text_iff, Value.text.injEq, decide_eq_true_iff, eq_comm]

theorem listAt_object (fs : Fields) (key : String) : (Value.object fs).listAt key = ((fs.lookup key).getD .null).toList := rfl

theorem isIn_object (fs : Fields) (key : String) :
    (Value.text key).isIn (.object fs) = .ok (fs.lookup key).isSome := Value.has_object fs key

def addedFor : Value → List Value
  | .list vs => vs
  | v => [v]

theorem addUnder_eq (name added : Value) : addUnder name added = (do
    if !(← name.isIn (← get)) then Change.apply (·.setItem name (.list []))
    let old ← (← get).item name
    Change.apply (·.setItem name (← old.append (addedFor added)))) := by
  cases added <;> rfl

theorem addUnder_ok {added : Value} (h : addUnder (.text n) added v = .ok u w) (hv : v.isRecord = true) :
    w.isRecord = true ∧ ∀ m, w.listAt m = v.listAt m ++ if m = n then addedFor added else [] := by
  cases v with
  | object fs =>
    -- the list is there, or it is put in first; then the connection goes to its end
    have hlist : ∀ (gs : Fields) (old new w' : Value), (∀ m, (Value.object gs).listAt m = (Value.object fs).listAt m) →
        (Value.object gs).item (.text n) = .ok old → old.append (addedFor added) = .ok new →
        (Value.object gs).setItem (.text n) new = .ok w' → w'.isRecord = true ∧
          ∀ m, w'.listAt m = (Value.object fs).listAt m ++ if m = n then addedFor added else [] := by
      intro gs old new w' hgs hold hnew hw
      rw [Value.item_object, Value.need_ok] at hold
      cases hw
      cases old with
      | list xs =>
        cases hnew
        refine ⟨rfl, fun m => ?_⟩
        rw [listAt_object, Fields.lookup_set, ← hgs, listAt_object]
        by_cases hm : m = n
        · subst hm
          simp [hold, Value.toList]
        · simp [hm]
      | _ => cases hnew
    rw [addUnder_eq] at h
    simp only [run_parts] at h
    obtain ⟨b, hb, h⟩ := h
    rw [isIn_object] at hb
    cases b with
    | true =>
      simp only [if_not_true, run_parts, Change.apply, run_set_ok] at h
      obtain ⟨old, hold, new, hnew, w', hw, rfl⟩ := h
      exact hlist fs old new w' (fun _ => rfl) hold hnew hw
    | false =>
      simp only [Bool.not_false, if_true, run_parts, Change.apply, run_set_ok] at h
      obtain ⟨_, _, ⟨v1, hv1, rfl⟩, old, hold, new, hnew, w', hw, rfl⟩ := h
      cases hv1
      refine hlist _ old new w' (fun m => ?_) hold hnew hw
      rw [listAt_object, listAt_object, Fields.lookup_set]
      by_cases hm : m = n
      · subst hm
        have hnone : fs.lookup m = none := by simpa using Except.ok.inj hb
        simp [hnone, Value.toList]
      · simp [hm]
  | _ => cases hv

theorem addUnderAll_ok {added : Value} (hg : NamedGroups groups) (h : addUnderAll groups added v = .ok u w) (hv : v.isRecord = true) :
    w.isRecord = true ∧ ∀ m, w.listAt m = v.listAt m ++ (List.replicate (listed groups m) (addedFor added)).flatten := by
  obtain ⟨ms, _, hread, hrun⟩ := run_bind_ok.1 h
  obtain ⟨hms, rfl⟩ := run_lift_ok.1 hread
  have hnamed := hg ms hms
  simp only [listed_eq hms]
  clear h hread hms
  induction ms generalizing v with
  | nil =>
    cases hrun
    exact ⟨hv, by simp⟩
  | cons g ms ih =>
    obtain ⟨_, t, hstep, hrest⟩ := forM_cons_ok.1 hrun
    obtain ⟨name, hname, hadd⟩ := run_lift_bind_ok.1 hstep
    obtain ⟨⟨n, hn⟩, hnamed⟩ := List.forall_mem_cons.1 hnamed
    obtain rfl := ok_unique hname hn
    obtain ⟨ht, hlist⟩ := addUnder_ok hadd hv
    obtain ⟨hw, hlist'⟩ := ih ht hrest hnamed
    refine ⟨hw, fun m => ?_⟩
    rw [hlist', hlist, List.countP_cons, same_identifier hn]
    by_cases hm : m = n <;> simp [hm, List.replicate_succ]

/-! ## What further operators bring -/

/-- What holds on when operators are added, connections in some groups, and notes about graphs. -/
structure Framed (groups : Value) (J : DraftState → Prop) : Prop where
  operators : ∀ os, Keeps J (addOperators os)
  connections : ∀ added, Keeps J (onConnections (addUnderAll groups added))
  connection : ∀ {name}, InGroup groups name → ∀ added, Keeps J (onConnections (addUnder name added))
  graphs : ∀ {s} graphs, J s → J { s with graphs }

theorem onConnections_ok {change : Change Unit} (h : onConnections change s = .ok u s') :
    ∃ connections, change s.connections = .ok () connections ∧ { s with connections } = s' := by
  simp only [onConnections, run_get_bind] at h
  cases hc : change s.connections with
  | ok v connections =>
    simp only [hc, run_set_ok] at h
    exact ⟨connections, rfl, h⟩
  | error e connections =>
    simp only [hc, run_bind_ok, run_throw_ok, and_false, exists_false] at h

theorem addOperators_run {os : List Operator} (h : addOperators os s = .ok u s') :
    ∃ operators, s.operators.append (os.map Operator.toEntry) = .ok operators ∧ { s with operators } = s' := by
  simp only [addOperators, run_parts, run_set_ok] at h
  exact h

theorem joinGraph_graphs {group : Value} (h : joinGraph group s = .ok u s') :
    ∃ graphs, { s with graphs } = s' := by
  simp only [joinGraph, run_parts] at h
  obtain ⟨name, -, g, -, b, -, h⟩ := h
  cases b with
  | true =>
    simp only [if_true, run_parts, run_set_ok] at h
    obtain ⟨added, -, h⟩ := h
    exact ⟨_, h⟩
  | false =>
    simp only [Bool.false_eq_true, if_false, pure_bind, run_set_ok] at h
    exact ⟨_, h⟩

theorem joinGraphs_graphs {gs : List Value} (h : gs.forM joinGraph s = .ok u s') :
    ∃ graphs, { s with graphs } = s' := by
  refine Keeps.forM (I := fun t => ∃ graphs, { s with graphs } = t) (fun g _ t v t' hrun ht => ?_) h ⟨s.graphs, rfl⟩
  obtain ⟨graphs, rfl⟩ := ht
  obtain ⟨graphs', rfl⟩ := joinGraph_graphs hrun
  exact ⟨graphs', rfl⟩

theorem framed_of_others (h : ∀ {s} operators connections graphs, J s → J { s with operators, connections, graphs }) : Framed groups J := by
  have hchange : ∀ change, Keeps J (onConnections change) := by
    intro change s u s' hrun hJ
    obtain ⟨connections, -, rfl⟩ := onConnections_ok hrun
    exact h s.operators connections s.graphs hJ
  refine ⟨fun os s u s' hrun hJ => ?_, fun _ => hchange _, fun _ _ => hchange _, fun {s} graphs hJ => ?_⟩
  · obtain ⟨operators, -, rfl⟩ := addOperators_run hrun
    exact h operators s.connections s.graphs hJ
  · exact h s.operators s.connections graphs hJ

/-- These operators and connections are there. -/
structure Holding (ops : List Value) (conns : String → List Value) (s : DraftState) : Prop where
  record : s.connections.isRecord = true
  operators : ops ⊆ s.operators.toList
  connections : ∀ m, conns m ⊆ s.connections.listAt m

theorem toList_append {v w : Value} {vs : List Value} (h : v.append vs = .ok w) : w.toList = v.toList ++ vs := by
  cases v with
  | list xs =>
    cases h
    rfl
  | _ => cases h

theorem framed_holding (hg : NamedGroups groups) : Framed groups (Holding ops conns) where
  operators := by
    intro os s u s' h hs
    obtain ⟨operators, happend, rfl⟩ := addOperators_run h
    refine ⟨hs.record, fun v hv => ?_, hs.connections⟩
    rw [toList_append happend]
    exact List.mem_append_left _ (hs.operators hv)
  connections := by
    intro added s u s' h hs
    obtain ⟨connections, hadd, rfl⟩ := onConnections_ok h
    obtain ⟨hrecord, hlist⟩ := addUnderAll_ok hg hadd hs.record
    refine ⟨hrecord, hs.operators, fun m v hv => ?_⟩
    rw [hlist]
    exact List.mem_append_left _ (hs.connections m hv)
  connection := by
    rintro name ⟨ms, hms, g, hgm, hname⟩ added s u s' h hs
    obtain ⟨n, hn⟩ := hg ms hms g hgm
    obtain rfl := ok_unique hn hname
    obtain ⟨connections, hadd, rfl⟩ := onConnections_ok h
    obtain ⟨hrecord, hlist⟩ := addUnder_ok hadd hs.record
    refine ⟨hrecord, hs.operators, fun m v hv => ?_⟩
    rw [hlist]
    exact List.mem_append_left _ (hs.connections m hv)
  graphs := fun _ hs => ⟨hs.record, hs.operators, hs.connections⟩

def SamePorts (s s' : DraftState) : Prop := s'.inPorts = s.inPorts ∧ s'.outPorts = s.outPorts ∧ s'.values = s.values

theorem framed_samePorts (s : DraftState) : Framed groups (SamePorts s) := framed_of_others fun _ _ _ h => h

namespace Framed

theorem modify (hJ : Framed groups J) (f : GraphDrafts → GraphDrafts) :
    Keeps J (modify fun s => { s with graphs := f s.graphs } : DraftStep Unit) := by
  intro s u s' h hs
  cases h
  exact hJ.graphs _ hs

variable (hJ : Framed c.groups J)
include hJ

theorem addConnection (k : Connection) : Keeps J (addConnection c.groups k) := hJ.connections _

theorem fetchModel (item : Value) : Keeps J (fetchModel c item) := by
  refine .lift fun _ _ => .lift fun _ _ => .lift fun _ _ => .lift fun _ _ => .lift fun _ _ => ?_
  refine (hJ.connections _).bind fun _ => .lift fun _ _ => (hJ.addConnection _).bind fun _ => ?_
  exact .lift fun _ _ => .lift fun _ _ => (hJ.addConnection _).bind fun _ => hJ.operators _

theorem settleFinisher (name : Value) : Keeps J (settleFinisher c name) := by
  refine keeps_get.bind fun s => .lift fun found _ => (hJ.modify _).bind fun _ => ?_
  cases (found.getD {}).finisher with
  | some f => exact keeps_pure _
  | none =>
    refine .lift fun _ _ => .lift fun _ _ => .lift fun _ _ => .lift fun _ _ => ?_
    refine (hJ.addConnection _).bind fun _ => (hJ.operators _).bind fun _ => ?_
    exact (hJ.modify _).bind fun _ => keeps_pure _

theorem connectFinisher (source sourcePort targetPort : Value) : Keeps J (connectFinisher c source sourcePort targetPort) :=
  .lift fun ms hms => .forM fun g hg => .lift fun _ hname => (hJ.settleFinisher _).bind fun _ => .lift fun _ _ =>
    hJ.connection ⟨ms, hms, g, hg, hname⟩ _

theorem serveOutput (item : Value) : Keeps J (serveOutput c item) := by
  refine .lift fun _ _ => .ite (keeps_pure _) (.lift fun _ _ => .ite (keeps_pure _) ?_)
  exact .lift fun _ _ => .lift fun _ _ => .lift fun _ _ => .lift fun _ _ => (hJ.operators _).bind fun _ => hJ.connections _

theorem storeModel (sentPort : Value) : Keeps J (storeModel c sentPort) := by
  refine .lift fun _ _ => .lift fun _ _ => .lift fun _ _ => .lift fun _ _ => .lift fun _ _ => ?_
  refine .lift fun _ _ => .lift fun _ _ => .lift fun _ _ => .lift fun _ _ => ?_
  refine .lift fun _ _ => (hJ.addConnection _).bind fun _ => .lift fun _ _ => (hJ.addConnection _).bind fun _ => ?_
  refine .lift fun _ _ => (hJ.addConnection _).bind fun _ => .lift fun _ _ => (hJ.addConnection _).bind fun _ => ?_
  exact (hJ.connectFinisher _ _ _).bind fun _ => hJ.operators _

theorem submitMetrics (sentPort : Value) : Keeps J (submitMetrics c sentPort) := by
  refine .lift fun _ _ => .lift fun _ _ => .lift fun _ _ => .lift fun _ _ => .lift fun _ _ => ?_
  refine (hJ.addConnection _).bind fun _ => .lift fun _ _ => (hJ.addConnection _).bind fun _ => ?_
  exact (hJ.connectFinisher _ _ _).bind fun _ => hJ.operators _

theorem trackOutput (sentPort item : Value) : Keeps J (do
    if c.options.trackModels then
      if ← c.isKind item .model then Graph.storeModel c sentPort
      if ← c.isKind item .metric then Graph.submitMetrics c sentPort : DraftStep Unit) := by
  have hmetric : Keeps J (do if ← c.isKind item .metric then Graph.submitMetrics c sentPort : DraftStep Unit) :=
    .lift fun _ _ => .ite (hJ.submitMetrics _) (keeps_pure _)
  exact .ite (.lift fun _ _ => .ite ((hJ.storeModel _).bind fun _ => hmetric) hmetric) (keeps_pure _)

theorem draftExtras (sentPort item : Value) : Keeps J (draftExtras c sentPort item) :=
  .ite ((hJ.serveOutput item).bind fun _ => hJ.trackOutput sentPort item) (hJ.trackOutput sentPort item)

theorem trackInput (item : Value) : Keeps J (do
    if c.options.trackModels then
      if ← c.isKind item .model then
        if !(← c.scores) then Graph.fetchModel c item : DraftStep Unit) :=
  .ite (.lift fun _ _ => .ite (.lift fun _ _ => .ite (hJ.fetchModel _) (keeps_pure _)) (keeps_pure _)) (keeps_pure _)

theorem draftOperator (label : Value) : Keeps J (draftOperator c label) :=
  keeps_get.bind fun _ => .lift fun _ _ => .lift fun _ _ => hJ.operators _

end Framed

end Graph

end TraceArtifacts
