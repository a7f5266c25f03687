import TraceArtifacts.Proofs.Framing

/-!
# Proofs: drafts of graphs

Drafting the parts of an element adds ports and connections, and nothing else that counts for graphs (`Grows`).
-/

namespace TraceArtifacts

def Element.statements (e : Element) : Value :=
  .object [("input", .list (e.inputs.map InputItem.toValue)), ("body", .list (e.body.map BodyItem.toValue)),
    ("output", .list (e.outputs.map OutputItem.toValue))]

theorem entry_sql (e : Element) : e.toValue.entry "sql" = .ok e.statements := by
  unfold Element.toValue
  cases e.single <;> rfl

theorem entry_name (e : Element) : e.toValue.entry "name" = .ok (.text e.name) := rfl

namespace Graph

variable {k : Connection} {s s' : DraftState} {c : ElementContext} {e : Element} {graphs : GraphDrafts} {d : GraphDraft}
  {es : List Element} {ins ins' ms outs outs' : List Value} {o : OutputItem} {place : Place} {settings : Settings} {m n script : String}
  {u : Unit} {g group groups identifier item label name sentPort statements v w : Value}

/-! ## What the items of an element add -/

def Sends (s : DraftState) : Prop := ∀ v ∈ s.values, ∃ name, port name ∈ s.outPorts ∧ v.entry "port_name" = .ok name

def IsPlain (c : ElementContext) : Prop := c.options.serveResults = false ∧ c.options.trackModels = false

/-- A step of drafting an element: it adds ports, sends nothing but through ports that there are, and where groups have names, which `N` says, it
takes no operator and no connection away. Where nothing further is asked for, it touches neither the graphs nor the operators, and adds
connections by group name. -/
structure Grows (c : ElementContext) (N : Prop) (s s' : DraftState) (ins outs : List Value) (added : String → List Value) : Prop where
  inPorts : s'.inPorts = s.inPorts ++ ins
  outPorts : s'.outPorts = s.outPorts ++ outs
  values : s.values ⊆ s'.values
  sends : Sends s → Sends s'
  holds : N → ∀ ops conns, Holding ops conns s → Holding ops conns s'
  others : IsPlain c → s'.graphs = s.graphs ∧ s'.operators = s.operators
  connections : IsPlain c → N → s.connections.isRecord = true → ∀ m,
    s'.connections.listAt m = s.connections.listAt m ++ added m

section Items

variable {N : Prop} {added added' : String → List Value}

theorem Grows.record (h : Grows c N s s' ins outs added) (hn : N) (hs : s.connections.isRecord = true) :
    s'.connections.isRecord = true :=
  (h.holds hn [] (fun _ => []) ⟨hs, List.nil_subset _, fun _ => List.nil_subset _⟩).record

theorem grows_others (layers : Value) (statements : List Value) : Grows c N s { s with layers, statements } [] [] fun _ => [] where
  inPorts := (List.append_nil _).symm
  outPorts := (List.append_nil _).symm
  values := List.Subset.refl _
  sends := id
  holds := fun _ _ _ hs => ⟨hs.record, hs.operators, hs.connections⟩
  others := fun _ => ⟨rfl, rfl⟩
  connections := fun _ _ _ _ => (List.append_nil _).symm

theorem Grows.refl (s : DraftState) : Grows c N s s [] [] fun _ => [] := grows_others s.layers s.statements

theorem Grows.trans {t : DraftState} (h1 : Grows c N s t ins outs added) (h2 : Grows c N t s' ins' outs' added') :
    Grows c N s s' (ins ++ ins') (outs ++ outs') fun m => added m ++ added' m where
  inPorts := by rw [h2.inPorts, h1.inPorts, List.append_assoc]
  outPorts := by rw [h2.outPorts, h1.outPorts, List.append_assoc]
  values := List.Subset.trans h1.values h2.values
  sends := h2.sends ∘ h1.sends
  holds := fun hn ops conns hs => h2.holds hn ops conns (h1.holds hn ops conns hs)
  others := fun hc => ⟨(h2.others hc).1.trans (h1.others hc).1, (h2.others hc).2.trans (h1.others hc).2⟩
  connections := fun hc hn hs m => by rw [h2.connections hc hn (h1.record hn hs), h1.connections hc hn hs, List.append_assoc]

theorem Grows.congr (h : Grows c N s s' ins outs added) (hi : ins = ins') (ho : outs = outs')
    (ha : ∀ m, added m = added' m) : Grows c N s s' ins' outs' added' := by
  obtain rfl := funext ha
  subst hi ho
  exact h

theorem forM_grows {α : Type} {f : α → DraftStep Unit} {I O : α → List Value} {A : α → String → List Value} {xs : List α}
    (step : ∀ x ∈ xs, ∀ s u s', f x s = .ok u s' → Grows c N s s' (I x) (O x) (A x)) (h : xs.forM f s = .ok u s') :
    Grows c N s s' (xs.flatMap I) (xs.flatMap O) fun m => xs.flatMap fun x => A x m := by
  induction xs generalizing s with
  | nil =>
    obtain ⟨-, rfl⟩ := run_pure_ok.1 h
    exact .refl s
  | cons x xs ih =>
    obtain ⟨v, t, hx, hrest⟩ := forM_cons_ok.1 h
    exact (step x (.head _) s v t hx).trans (ih (fun y hy => step y (.tail _ hy)) hrest)

theorem framed_grows {x : DraftStep Unit} (hg : N → NamedGroups c.groups) (hx : ∀ {J}, Framed c.groups J → Keeps J x)
    (hplain : IsPlain c → x = pure ()) (h : x s = .ok u s') : Grows c N s s' [] [] fun _ => [] := by
  have hsame : IsPlain c → s' = s := by
    intro hc
    rw [hplain hc] at h
    exact (run_pure_ok.1 h).2.symm
  obtain ⟨hins, houts, hvalues⟩ := hx (framed_samePorts s) h ⟨rfl, rfl, rfl⟩
  refine ⟨by rw [hins, List.append_nil], by rw [houts, List.append_nil], by rw [hvalues]; exact List.Subset.refl _, fun hs => ?_,
    fun hn ops conns hs => hx (framed_holding (hg hn)) h hs, fun hc => ?_, fun hc _ _ m => ?_⟩
  · rw [Sends, hvalues, houts]
    exact hs
  · rw [hsame hc]
    exact ⟨rfl, rfl⟩
  · rw [hsame hc, List.append_nil]

theorem draftInput_grows (hg : N → NamedGroups c.groups) {i : InputItem} (h : draftInput c i.toValue s = .ok u s') :
    Grows c N s s' (if i.link.isSome then [port (.text i.name)] else []) [] fun _ => [] := by
  have htrack : ∀ {t}, _ → Grows c N t s' [] [] fun _ => [] := fun {t} =>
    framed_grows (s := t) (u := u) hg (fun hJ => hJ.trackInput i.toValue) fun hc => if_neg (by rw [hc.2]; decide)
  simp only [draftInput] at h
  obtain ⟨related, hrelated, h⟩ := run_lift_bind_ok.1 h
  have hl : i.link.isSome = related.isTruthy := by rw [← Except.ok.inj hrelated]; rfl
  rw [hl]
  cases htrue : related.isTruthy with
  | true =>
    rw [htrue, if_pos rfl] at h
    simp only [run_parts, run_modify_ok, addStatement] at h
    obtain ⟨name, hname, _, _, rfl, sql, -, _, _, rfl, h⟩ := h
    obtain rfl : .text i.name = name := Except.ok.inj hname
    obtain ⟨hins, houts, hvalues, hsends, hholds, hothers, hconns⟩ := htrack h
    refine ⟨by simpa using hins, houts, hvalues, hsends, fun hn ops conns hs => ?_, hothers, hconns⟩
    exact hholds hn ops conns ⟨hs.record, hs.operators, hs.connections⟩
  | false =>
    rw [htrue, if_neg Bool.false_ne_true] at h
    simp only [run_parts, run_modify_ok, addStatement] at h
    obtain ⟨text, -, _, _, rfl, h⟩ := h
    exact (grows_others s.layers _).trans (htrack h)

theorem draftBody_grows (h : draftBody c item s = .ok u s') : Grows c N s s' [] [] fun _ => [] := by
  simp only [draftBody, run_parts, addStatement, run_modify_ok] at h
  obtain ⟨_, -, _, -, _, -, _, -, _, -, _, -, rfl⟩ := h
  exact grows_others s.layers _

theorem addConnection_grows (hg : N → NamedGroups groups) (h : addConnection groups k s = .ok u s') :
    Grows c N s s' [] [] fun m => List.replicate (listed groups m) k.toValue := by
  have hholds : N → ∀ ops conns, Holding ops conns s → Holding ops conns s' :=
    fun hn _ _ => (framed_holding (hg hn)).connections k.toValue h
  obtain ⟨connections, hadd, rfl⟩ := onConnections_ok h
  refine ⟨by simp, by simp, List.Subset.refl _, id, hholds, fun _ => ⟨rfl, rfl⟩, fun _ hn hs m => ?_⟩
  rw [(addUnderAll_ok (hg hn) hadd hs).2, show addedFor k.toValue = [k.toValue] from rfl, List.flatten_replicate_singleton]

def LinkConnects (identifier : Value) (name : String) (k : Link) (m : String) (v : Value) : Prop :=
  ∃ target conn, k.elementName = some target ∧ connect identifier (.text name) (.text target) k.interfaceName = .ok conn ∧
    InGroup k.groups (.text m) ∧ v = conn.toValue

def linkConnections (identifier : Value) (name : String) (k : Link) (m : String) : List Value :=
  match k.elementName.map fun target => connect identifier (.text name) (.text target) k.interfaceName with
  | some (.ok conn) => List.replicate (listed k.groups m) conn.toValue
  | _ => []

theorem mem_linkConnections {name : String} {k : Link} : v ∈ linkConnections identifier name k m ↔ LinkConnects identifier name k m v := by
  unfold linkConnections LinkConnects
  cases k.elementName with
  | none => simp
  | some target =>
    cases hconn : connect identifier (.text name) (.text target) k.interfaceName with
    | error e => simp [hconn]
    | ok conn => simp [hconn, List.mem_replicate, ← Nat.pos_iff_ne_zero, listed_pos_iff]

theorem addPortValue_grows (h : addPortValue c name item s = .ok u s') (hport : port name ∈ s.outPorts) :
    Grows c N s s' [] [] (fun _ => []) ∧ ∃ v ∈ s'.values, v.entry "port_name" = .ok name := by
  simp only [addPortValue, portValue, run_parts, run_modify_ok, bind_ok, pure_ok] at h
  obtain ⟨_, -, v, ⟨_, -, _, -, rfl⟩, rfl⟩ := h
  refine ⟨⟨by simp, by simp, List.subset_append_left _ _, fun hs w hw => ?_, fun _ _ _ hs => ⟨hs.record, hs.operators, hs.connections⟩,
    fun _ => ⟨rfl, rfl⟩, by simp⟩, _, List.mem_append_right _ (List.mem_singleton.2 rfl), rfl⟩
  rcases List.mem_append.1 hw with hw | hw
  · exact hs w hw
  · obtain rfl := List.mem_singleton.1 hw
    exact ⟨name, hport, rfl⟩

theorem addOutPort_grows (h : addOutPort name s = .ok u s') :
    Grows c N s s' [] [port name] (fun _ => []) ∧ port name ∈ s'.outPorts := by
  cases h
  refine ⟨⟨by simp, rfl, List.Subset.refl _, fun hs v hv => ?_, fun _ _ _ hs => ⟨hs.record, hs.operators, hs.connections⟩,
    fun _ => ⟨rfl, rfl⟩, by simp⟩, List.mem_append_right _ (List.mem_singleton.2 rfl)⟩
  obtain ⟨n, hn, hname⟩ := hs v hv
  exact ⟨n, List.mem_append_left _ hn, hname⟩

theorem draftLink_grows {k : Link} (hk : N → NamedGroups k.groups) {name : String}
    (h : draftLink c item k.toValue name s = .ok u s') :
    Grows c N s s' [] [port (.text name)] (linkConnections c.identifier name k) := by
  simp only [draftLink, run_parts] at h
  obtain ⟨_, s1, h1, _, s2, h2, groups, hgroups, target, htarget, targetPort, hport, conn, hconn, h3⟩ := h
  obtain ⟨hg1, hmem⟩ := addOutPort_grows (N := N) h1
  have hg := hg1.trans (addPortValue_grows h2 hmem).1
  obtain ⟨path, kgroups, direction, kname, elementName, interfaceName, dbObjectName⟩ := k
  cases elementName with
  | none => cases htarget
  | some en =>
    obtain rfl : kgroups = groups := Except.ok.inj hgroups
    obtain rfl : .text en = target := Except.ok.inj htarget
    obtain rfl : interfaceName = targetPort := Except.ok.inj hport
    exact (hg.trans (addConnection_grows hk h3)).congr rfl rfl fun m => by simp [linkConnections, hconn]

def outPortsOf : OutputItem → List Value
  | .table t =>
      if t.links.isEmpty then [port t.name]
      else (List.range (t.links.length + 1)).map fun i => port (.text (t.name.textOrEmpty ++ toString i))
  | .var v => [port v.name]

def OutputConnects (identifier : Value) (o : OutputItem) (m : String) (v : Value) : Prop :=
  ∃ t n k, ∃ i : Nat, o = .table t ∧ t.name = .text n ∧ t.links[i]? = some k ∧ LinkConnects identifier (n ++ toString i) k m v

def outputConnections (identifier : Value) (o : OutputItem) (m : String) : List Value :=
  match o with
  | .table t =>
      t.links.zipIdx.flatMap fun p => linkConnections identifier (t.name.textOrEmpty ++ toString p.2) p.1 m
  | .var _ => []

theorem mem_outputConnections (hn : ∀ t, o = .table t → ∃ n, t.name = .text n) :
    v ∈ outputConnections identifier o m ↔ OutputConnects identifier o m v := by
  cases o with
  | var w => simp [outputConnections, OutputConnects]
  | table t =>
    obtain ⟨n, hn⟩ := hn t rfl
    have hname : t.name.textOrEmpty = n := by rw [hn]; rfl
    simp only [outputConnections, List.mem_flatMap, mem_linkConnections, hname]
    constructor
    · rintro ⟨⟨k, i⟩, hp, hconn⟩
      exact ⟨t, n, k, i, rfl, hn, List.mem_zipIdx_iff_getElem?.1 hp, hconn⟩
    · rintro ⟨t', n', k, i, ht, hn', hi, hconn⟩
      obtain rfl := OutputItem.table.inj ht
      obtain rfl := Value.text.inj (hn.symm.trans hn')
      exact ⟨(k, i), List.mem_zipIdx_iff_getElem?.2 hi, hconn⟩

theorem keepTable_grows (h : keepTable c place item s = .ok u s') : Grows c N s s' [] [] fun _ => [] := by
  simp only [keepTable, run_parts, run_modify_ok, addStatement] at h
  obtain ⟨_, -, _, -, _, -, _, -, _, -, _, _, rfl, _, -, _, _, rfl, _, -, _, -, rfl⟩ := h
  exact grows_others _ _

theorem outputLinks_table (t : OutputTable) : outputLinks t.toValue = .ok (t.links.map Link.toValue) := by
  have hrel : t.toValue.entryOr "hasrel" .null = .ok (.bool !t.links.isEmpty) := rfl
  have hlinks : t.toValue.entryOr "relobject" .null = .ok (if t.links.isEmpty then .null else .list (t.links.map Link.toValue)) := rfl
  unfold outputLinks
  rw [hrel, hlinks]
  cases t.links <;> rfl

def linkPortsOf : OutputItem → List Value
  | .table t => (List.range t.links.length).map fun i => port (.text (t.name.textOrEmpty ++ toString i))
  | .var _ => []

/-- The ports of an output come link by link, and then the one without a link. -/
theorem draftOutput_steps (hk : N → ∀ t, o = .table t → ∀ k ∈ t.links, NamedGroups k.groups)
    (h : draftOutput c place o.toValue s = .ok u s') : ∃ s1 links sentPort,
      Grows c N s s1 [] (linkPortsOf o) (outputConnections c.identifier o) ∧ outputLinks o.toValue = .ok links ∧
      freePort o.name links = .ok sentPort ∧ draftFreePort c place o.toValue sentPort s1 = .ok u s' := by
  simp only [draftOutput, run_parts] at h
  obtain ⟨name, hname, links, hlinks, _, s1, h, sentPort, hsent, hfree⟩ := h
  cases o with
  | var v =>
    obtain rfl : v.name = name := Except.ok.inj hname
    obtain rfl : [] = links := Except.ok.inj hlinks
    cases h
    exact ⟨s, [], sentPort, .refl s, hlinks, hsent, hfree⟩
  | table t =>
    obtain rfl : t.name = name := Except.ok.inj hname
    obtain rfl := ok_unique (outputLinks_table t) hlinks
    rw [List.zipIdx_map, List.forM_eq_forM, List.forM_map] at h
    have hg := forM_grows (I := fun _ => []) (O := fun p => [port (.text (t.name.textOrEmpty ++ toString p.2))])
      (A := fun p => linkConnections c.identifier (t.name.textOrEmpty ++ toString p.2) p.1)
      (fun p hp s u s' hstep => by
        obtain ⟨n, hname', hlink⟩ := run_lift_bind_ok.1 hstep
        have htext : t.name.textOrEmpty = n := by rw [asText_ok.1 hname']; rfl
        rw [htext]
        exact draftLink_grows (fun hn => hk hn t rfl p.1 (List.fst_mem_of_mem_zipIdx hp)) hlink) h
    refine ⟨s1, _, sentPort, hg.congr (by simp) ?_ fun m => rfl, hlinks, hsent, hfree⟩
    rw [linkPortsOf, ← List.map_eq_flatMap, List.range_eq_range', ← List.zipIdx_map_snd, List.map_map]
    rfl

def Sent (s : DraftState) (o : OutputItem) : Prop :=
  ∀ t, o = .table t → (∃ n, t.name = .text n) ∨ ∃ v ∈ s.values, v.entry "port_name" = .ok t.name

theorem Sent.mono (h : Sent s o) (hs : s.values ⊆ s'.values) : Sent s' o := by
  intro t ht
  refine (h t ht).imp_right ?_
  rintro ⟨v, hv, hname⟩
  exact ⟨v, hs hv, hname⟩

/-- The port without a link, with its value where there is a table, comes before what is asked for further. -/
theorem draftFreePort_steps (h : draftFreePort c place item sentPort s = .ok u s') : ∃ s1 s2,
    Grows c N s s1 [] [port sentPort] (fun _ => []) ∧ draftExtras c sentPort item s1 = .ok () s2 ∧
    Grows c N s2 s' [] [] (fun _ => []) ∧
    (item.has "dbobject_name" = .ok true → ∃ v ∈ s1.values, v.entry "port_name" = .ok sentPort) := by
  simp only [draftFreePort, run_parts] at h
  obtain ⟨_, t, h1, b, hb, h⟩ := h
  obtain ⟨hg1, hmem⟩ := addOutPort_grows (c := c) (N := N) h1
  have hrest : ∃ s1, Grows c N t s1 [] [] (fun _ => []) ∧ (b = true → ∃ v ∈ s1.values, v.entry "port_name" = .ok sentPort) ∧ (do
      draftExtras c sentPort item
      if ← liftM (item.has "sql_vars") then keepTable c place item : DraftStep Unit) s1 = .ok u s' := by
    cases b with
    | true =>
      obtain ⟨_, s1, h2, h⟩ := run_bind_ok.1 h
      obtain ⟨hg2, hsend⟩ := addPortValue_grows h2 hmem
      exact ⟨s1, hg2, fun _ => hsend, h⟩
    | false => exact ⟨t, .refl t, fun hb => by simp at hb, h⟩
  obtain ⟨s1, hg2, hsend, h⟩ := hrest
  simp only [run_parts] at h
  obtain ⟨_, s2, h3, b', -, h⟩ := h
  refine ⟨s1, s2, hg1.trans hg2, h3, ?_, fun htable => hsend (ok_unique hb htable)⟩
  cases b' with
  | true => exact keepTable_grows h
  | false =>
    obtain ⟨-, rfl⟩ := run_pure_ok.1 h
    exact .refl s2

variable (hg : N → NamedGroups c.groups)
include hg

theorem draftFreePort_grows (h : draftFreePort c place item sentPort s = .ok u s') :
    Grows c N s s' [] [port sentPort] (fun _ => []) ∧ (item.has "dbobject_name" = .ok true →
      ∃ v ∈ s'.values, v.entry "port_name" = .ok sentPort) := by
  obtain ⟨s1, s2, hg1, hextras, hg3, hsend⟩ := draftFreePort_steps (N := N) h
  have hg2 := framed_grows hg (fun hJ => hJ.draftExtras sentPort item) (fun hc => by simp [draftExtras, hc.1, hc.2]) hextras
  refine ⟨(hg1.trans hg2).trans hg3, fun htable => ?_⟩
  obtain ⟨v, hv, hname⟩ := hsend htable
  exact ⟨v, hg3.values (hg2.values hv), hname⟩

theorem draftOutput_grows (hk : N → ∀ t, o = .table t → ∀ k ∈ t.links, NamedGroups k.groups)
    (h : draftOutput c place o.toValue s = .ok u s') :
    Grows c N s s' [] (outPortsOf o) (outputConnections c.identifier o) ∧ Sent s' o := by
  obtain ⟨s1, links, sentPort, hg1, hlinks, hsent, hfree⟩ := draftOutput_steps hk h
  obtain ⟨hg2, hsend⟩ := draftFreePort_grows hg hfree
  have hports := hg1.trans hg2
  cases o with
  | table t =>
    obtain rfl := ok_unique (outputLinks_table t) hlinks
    cases hl : t.links with
    | nil =>
      simp only [freePort, hl, List.map_nil, List.isEmpty_nil, if_true, Except.ok.injEq] at hsent
      obtain rfl : t.name = sentPort := hsent
      refine ⟨hports.congr rfl (by simp [linkPortsOf, outPortsOf, hl]) (by simp), fun t' ht => ?_⟩
      obtain rfl := OutputItem.table.inj ht
      exact .inr (hsend rfl)
    | cons k ks =>
      simp only [freePort, hl, List.map_cons, List.isEmpty_cons, Bool.false_eq_true, if_false, bind_ok, pure_ok] at hsent
      obtain ⟨n, hn, rfl⟩ := hsent
      have htext : t.name = .text n := asText_ok.1 hn
      refine ⟨hports.congr rfl ?_ (by simp), fun t' ht => ?_⟩
      · simp [linkPortsOf, outPortsOf, hl, List.range_succ, htext, Value.textOrEmpty, Value.text?]
      · obtain rfl := OutputItem.table.inj ht
        exact .inl ⟨n, htext⟩
  | var v =>
    obtain rfl : [] = links := Except.ok.inj hlinks
    obtain rfl : v.name = sentPort := Except.ok.inj hsent
    exact ⟨hports, fun t ht => by cases ht⟩

end Items

/-! ## Graphs -/

structure Keyed (graphs : GraphDrafts) : Prop where
  nodup : (graphs.map Prod.fst).Nodup
  text : ∀ p ∈ graphs, ∃ n, p.1 = .text n

theorem keys_put (graphs : GraphDrafts) (n : String) (d : GraphDraft) :
    .text n ∈ graphs.map Prod.fst ∧ (graphs.put (.text n) d).map Prod.fst = graphs.map Prod.fst ∨
    .text n ∉ graphs.map Prod.fst ∧ (graphs.put (.text n) d).map Prod.fst = graphs.map Prod.fst ++ [.text n] := by
  induction graphs with
  | nil => exact .inr ⟨List.not_mem_nil, rfl⟩
  | cons p rest ih =>
    obtain ⟨k, e⟩ := p
    unfold GraphDrafts.put
    by_cases hk : k = .text n
    · simp [hk, same_text_iff]
    · simpa [same_text_iff, hk, Ne.symm hk] using ih

theorem mem_keys_put (graphs : GraphDrafts) (n : String) (d : GraphDraft) (g : Value) :
    g ∈ (graphs.put (.text n) d).map Prod.fst ↔ g ∈ graphs.map Prod.fst ∨ g = .text n := by
  rcases keys_put graphs n d with ⟨hmem, heq⟩ | ⟨-, heq⟩
  · rw [heq, or_iff_left_of_imp fun h => h ▸ hmem]
  · rw [heq, List.mem_append, List.mem_singleton]

theorem Keyed.put (h : Keyed graphs) (n : String) (d : GraphDraft) : Keyed (graphs.put (.text n) d) := by
  constructor
  · rcases keys_put graphs n d with ⟨-, heq⟩ | ⟨hnew, heq⟩
    · rw [heq]
      exact h.nodup
    · rw [heq]
      exact h.nodup.append (List.nodup_singleton _) (List.disjoint_singleton.2 hnew)
  · intro p hp
    rcases (mem_keys_put ..).1 (List.mem_map_of_mem hp) with hold | hnew
    · obtain ⟨q, hq, heq⟩ := List.mem_map.1 hold
      exact heq ▸ h.text q hq
    · exact ⟨n, hnew⟩

def graphAt (graphs : GraphDrafts) (n : String) : GraphDraft :=
  ((List.find? (fun g => g.1.same (.text n)) graphs).map Prod.snd).getD {}

theorem graphAt_cons (k : Value) (d : GraphDraft) (rest : GraphDrafts) (n : String) :
    graphAt ((k, d) :: rest) n = if k.same (.text n) then d else graphAt rest n := by
  unfold graphAt
  cases h : k.same (.text n) <;> simp [h]

theorem graphAt_of_mem (h : (graphs.map Prod.fst).Nodup) (hd : (.text n, d) ∈ graphs) : graphAt graphs n = d := by
  induction graphs with
  | nil => cases hd
  | cons p rest ih =>
    obtain ⟨k, e⟩ := p
    obtain ⟨hk, hrest⟩ := List.nodup_cons.1 h
    rw [graphAt_cons]
    rcases List.mem_cons.1 hd with heq | hmem
    · cases heq
      exact if_pos (same_text_iff.2 rfl)
    · rw [if_neg, ih hrest hmem]
      intro hsame
      obtain rfl := same_text_iff.1 hsame
      exact hk (List.mem_map.2 ⟨_, hmem, rfl⟩)

theorem graphAt_put (graphs : GraphDrafts) (n : String) (d : GraphDraft) (m : String) :
    graphAt (graphs.put (.text n) d) m = if m = n then d else graphAt graphs m := by
  induction graphs with
  | nil =>
    rw [GraphDrafts.put, graphAt_cons]
    by_cases hm : m = n
    · simp [hm, same_text_iff]
    · simp [hm, Ne.symm hm, same_text_iff]
  | cons p rest ih =>
    obtain ⟨k, e⟩ := p
    unfold GraphDrafts.put
    by_cases hk : k.same (.text n) = true
    · obtain rfl := same_text_iff.1 hk
      rw [if_pos hk, graphAt_cons, graphAt_cons]
      by_cases hm : m = n
      · simp [hm, same_text_iff]
      · simp [hm, Ne.symm hm, same_text_iff]
    · rw [if_neg hk, graphAt_cons, graphAt_cons, ih]
      by_cases hm : m = n
      · simp [hm, hk]
      · simp [hm]

def joined (s : DraftState) (n : String) : GraphDraft where
  finisher := some ((graphAt s.graphs n).finisher.getD none)
  operators := (graphAt s.graphs n).operators ++ s.operators.toList
  connections := (graphAt s.graphs n).connections ++ s.connections.listAt n

theorem joinGraph_run (hn : group.entry "identifier" = .ok (.text n)) (hs : s.connections.isRecord = true) :
    joinGraph group s = .ok () { s with graphs := s.graphs.put (.text n) (joined s n) } := by
  obtain ⟨fs, hfs⟩ : ∃ fs, s.connections = .object fs := by
    cases hv : s.connections with
    | object fs => exact ⟨fs, rfl⟩
    | _ => simp [hv, Value.isRecord] at hs
  have hfind : s.graphs.find? (.text n) = .ok ((List.find? (fun g => g.1.same (.text n)) s.graphs).map Prod.snd) := rfl
  have hin : (Value.text n).isIn s.connections = .ok (fs.lookup n).isSome := by rw [hfs, isIn_object]
  simp only [joinGraph, hn, run_bind_ok, run_get_ok, run_lift_ok]
  refine ⟨_, _, ⟨rfl, rfl⟩, _, _, ⟨rfl, rfl⟩, _, _, ⟨hfind, rfl⟩, _, _, ⟨hin, rfl⟩, ?_⟩
  have hlist : s.connections.listAt n = ((fs.lookup n).getD .null).toList := by rw [hfs, listAt_object]
  cases hl : fs.lookup n with
  | none =>
    rw [hl] at hlist
    simp only [Option.isSome_none, Bool.false_eq_true, if_false, run_bind_ok, run_pure_ok, run_set_ok]
    exact ⟨_, _, ⟨rfl, rfl⟩, by rw [joined, hlist]; rfl⟩
  | some v =>
    rw [hl] at hlist
    have hitem : s.connections.item (.text n) = .ok v := by rw [hfs, Value.item_object, hl]; rfl
    simp only [Option.isSome_some, if_true, run_parts, run_set_ok]
    exact ⟨_, hitem, by rw [joined, hlist]; rfl⟩

/-! ## Elements -/

def inPortsOf (e : Element) : List Value :=
  e.inputs.flatMap fun i => if i.link.isSome then [port (.text i.name)] else []

structure IsOperatorOf (e : Element) (o : Operator) : Prop where
  process : processName (.text e.name) = .ok o.process
  inPorts : o.inPorts = .list (inPortsOf e)
  outPorts : o.outPorts = .list (e.outputs.flatMap outPortsOf)
  named : ∀ t, .table t ∈ e.outputs → ∃ n, t.name = .text n

theorem entryOr_ok {d : Value} {k : String} (h : v.entryOr k d = .ok w) : w = v.get k d := by
  cases v with
  | object fs =>
    rw [Value.entryOr_object] at h
    exact (Except.ok.inj h).symm
  | _ =>
    obtain ⟨b, -, h⟩ := bind_ok.1 h
    cases b with
    | true => cases h
    | false => exact (pure_ok.1 h).symm

theorem shownGroupsOf_ok {o : Value} (h : shownGroupsOf o = .ok groups) : (NamedGroups (o.get "groups" .null) → NamedGroups groups) ∧
      ∀ g, InGroup groups g ↔ InGroup (o.get "groups" .null) g := by
  simp only [shownGroupsOf, bind_ok, pure_ok] at h
  obtain ⟨v, hv, h⟩ := h
  obtain rfl := entryOr_ok hv
  cases ht : (o.get "groups" .null).isTruthy with
  | true =>
    rw [ht, if_pos rfl] at h
    subst h
    exact ⟨id, fun _ => Iff.rfl⟩
  | false =>
    rw [ht, if_neg (by simp)] at h
    subst h
    have hnone : ∀ ms, (o.get "groups" .null).members = .ok ms → ms = [] := by
      intro ms hms
      have := Value.isTruthy_of_members hms
      simpa [ht] using this
    refine ⟨fun _ ms hms m hm => ?_, fun g => ⟨?_, ?_⟩⟩
    · cases hms
      simp at hm
    · rintro ⟨ms, hms, m, hm, -⟩
      cases hms
      simp at hm
    · rintro ⟨ms, hms, m, hm, -⟩
      simp [hnone ms hms] at hm

theorem shownGroupsOf_listed {o : Value} (h : shownGroupsOf o = .ok groups) (n : String) :
    listed groups n = listed (o.get "groups" .null) n := by
  have hin := (shownGroupsOf_ok h).2 (.text n)
  simp only [shownGroupsOf, bind_ok, pure_ok] at h
  obtain ⟨v, hv, h⟩ := h
  obtain rfl := entryOr_ok hv
  cases ht : (o.get "groups" .null).isTruthy with
  | true =>
    rw [ht, if_pos rfl] at h
    rw [h]
  | false =>
    rw [ht, if_neg (by simp)] at h
    subst h
    have hzero : ¬ 0 < listed (.list []) n := Nat.lt_irrefl 0
    have hzero' : ¬ 0 < listed (o.get "groups" .null) n := fun h => hzero (listed_pos_iff.2 (hin.2 (listed_pos_iff.1 h)))
    omega

theorem get_groups_element (e : Element) : e.toValue.get "groups" .null = e.groups := by
  obtain ⟨name, origin, single, inputs, body, outputs, groups⟩ := e
  cases single <;> rfl

theorem scriptOperator_ok {component : String} {inPorts outPorts : List Value} {o : Operator}
    (h : scriptOperator component identifier label script inPorts outPorts = .ok o) :
    processName identifier = .ok o.process ∧ o.inPorts = .list inPorts ∧ o.outPorts = .list outPorts := by
  simp only [scriptOperator, operatorFor, bind_ok, pure_ok] at h
  obtain ⟨_, ⟨process, hprocess, rfl⟩, rfl⟩ := h
  exact ⟨hprocess, rfl, rfl⟩

theorem addOperators_ok {os : List Operator} (h : addOperators os s = .ok u s') (hs : s.operators = .list []) :
    s' = { s with operators := .list (os.map Operator.toEntry) } := by
  obtain ⟨operators, happend, rfl⟩ := addOperators_run h
  rw [hs] at happend
  cases happend
  rfl

/-- Operators and connections go to each graph as often as it is named. -/
theorem joinGraphs_ok (hg : NamedGroups groups) (hms : groups.members = .ok ms) (h : ms.forM joinGraph s = .ok u s')
    (hs : s.connections.isRecord = true) : (Keyed s.graphs → Keyed s'.graphs) ∧
    (∀ g, g ∈ s'.graphs.map Prod.fst ↔ g ∈ s.graphs.map Prod.fst ∨ InGroup groups g) ∧ ∀ n,
      (graphAt s'.graphs n).operators = (graphAt s.graphs n).operators ++ (List.replicate (listed groups n) s.operators.toList).flatten ∧
      (graphAt s'.graphs n).connections =
        (graphAt s.graphs n).connections ++ (List.replicate (listed groups n) (s.connections.listAt n)).flatten := by
  have hnamed := hg ms hms
  have hin : ∀ g, InGroup groups g ↔ ∃ m ∈ ms, m.entry "identifier" = .ok g := by simp [InGroup, hms]
  simp only [listed_eq hms, hin]
  clear hms hin
  induction ms generalizing s with
  | nil =>
    cases h
    exact ⟨id, by simp, by simp⟩
  | cons m ms ih =>
    obtain ⟨_, t, hstep, hrest⟩ := forM_cons_ok.1 h
    obtain ⟨⟨k, hk⟩, hnamed⟩ := List.forall_mem_cons.1 hnamed
    rw [joinGraph_run hk hs] at hstep
    obtain ⟨-, rfl⟩ := EStateM.Result.ok.inj hstep
    obtain ⟨hkeyed, hkeys, hlists⟩ := ih hrest hs hnamed
    refine ⟨fun h => hkeyed (h.put ..), fun g => ?_, fun n => ?_⟩
    · rw [hkeys, mem_keys_put, List.exists_mem_cons_iff, hk, Except.ok.injEq, or_assoc, eq_comm (a := g)]
    · rw [(hlists n).1, (hlists n).2, graphAt_put, List.countP_cons, same_identifier hk]
      by_cases hn : n = k <;> simp [hn, joined, List.replicate_succ]

def partsOf (e : Element) : Parts where
  inputs := .list (e.inputs.map InputItem.toValue)
  body := .list (e.body.map BodyItem.toValue)
  outputs := .list (e.outputs.map OutputItem.toValue)

theorem draftParts_ok (h : draftParts c place (partsOf e) s = .ok u s') :
    ∃ s1 s2, e.inputs.forM (fun i => draftInput c i.toValue) s = .ok () s1 ∧ e.body.forM (fun i => draftBody c i.toValue) s1 = .ok () s2 ∧
      e.outputs.zipIdx.forM (fun p => draftOutput c (place ++ [.position p.2]) p.1.toValue) s2 = .ok u s' := by
  simp only [draftParts, run_parts] at h
  obtain ⟨_, hi, _, s1, h1, _, hb, _, s2, h2, _, ho, h3⟩ := h
  cases hi
  cases hb
  cases ho
  rw [List.forM_eq_forM, List.forM_map] at h1 h2
  rw [List.zipIdx_map, List.forM_eq_forM, List.forM_map] at h3
  exact ⟨s1, s2, h1, h2, h3⟩

theorem flatMap_zipIdx {α β : Type} (f : α → List β) (xs : List α) : (xs.zipIdx.flatMap fun p => f p.1) = xs.flatMap f := by
  nth_rewrite 2 [← List.zipIdx_map_fst 0 xs]
  rw [List.flatMap_map]

theorem draftOutputs_grows {N : Prop} (hg : N → NamedGroups c.groups) {outputs : List OutputItem}
    (hk : N → ∀ t, .table t ∈ outputs → ∀ k ∈ t.links, NamedGroups k.groups)
    (h : outputs.zipIdx.forM (fun p => draftOutput c (place ++ [.position p.2]) p.1.toValue) s = .ok u s') :
    Grows c N s s' [] (outputs.flatMap outPortsOf) (fun m => outputs.flatMap fun item => outputConnections c.identifier item m) ∧
    ∀ item ∈ outputs, Sent s' item := by
  have hstep : ∀ p ∈ outputs.zipIdx, ∀ (t : DraftState) u t', draftOutput c (place ++ [.position p.2]) p.1.toValue t = .ok u t' →
      Grows c N t t' [] (outPortsOf p.1) (outputConnections c.identifier p.1) ∧ Sent t' p.1 :=
    fun p hp t u t' hrun => draftOutput_grows hg (fun hn table htable => hk hn table (htable ▸ List.fst_mem_of_mem_zipIdx hp)) hrun
  constructor
  · exact (forM_grows (fun p hp t u t' hrun => (hstep p hp t u t' hrun).1) h).congr (by simp)
      (flatMap_zipIdx outPortsOf _) fun m => flatMap_zipIdx (fun item => outputConnections c.identifier item m) _
  · intro item hitem
    obtain ⟨i, hi⟩ := List.getElem?_of_mem hitem
    have hmem : (item, i) ∈ outputs.zipIdx := List.mem_zipIdx_iff_getElem?.2 hi
    refine forM_run_brings (I := fun _ => True) (J := fun t => Sent t item) (fun _ _ _ _ _ _ => id)
      (fun p hp t u t' hrun hsent => ?_) hmem (fun _ hrun => ?_) h trivial
    · exact hsent.mono (hstep p hp t u t' hrun).1.values
    · exact (hstep _ hmem _ _ _ hrun).2

theorem draftParts_grows {N : Prop} (hg : N → NamedGroups c.groups)
    (hk : N → ∀ t, .table t ∈ e.outputs → ∀ k ∈ t.links, NamedGroups k.groups)
    (h : draftParts c place (partsOf e) s = .ok u s') : Grows c N s s' (inPortsOf e) (e.outputs.flatMap outPortsOf)
      (fun m => e.outputs.flatMap fun item => outputConnections c.identifier item m) ∧ ∀ item ∈ e.outputs, Sent s' item := by
  obtain ⟨s1, s2, h1, h2, h3⟩ := draftParts_ok h
  have hg1 := forM_grows (O := fun _ => []) (fun i _ s u s' hstep => draftInput_grows hg hstep) h1
  have hg2 := forM_grows (fun item _ s u s' hstep => draftBody_grows (N := N) hstep) h2
  obtain ⟨hg3, hsent⟩ := draftOutputs_grows hg hk h3
  have hnone : ∀ {α : Type} (xs : List α), xs.flatMap (fun _ => ([] : List Value)) = [] := by simp
  refine ⟨((hg1.trans hg2).trans hg3).congr ?_ ?_ fun m => ?_, hsent⟩
  · rw [hnone, List.append_nil, List.append_nil, inPortsOf]
  · rw [hnone, hnone, List.nil_append, List.nil_append]
  · rw [hnone, hnone, List.nil_append, List.nil_append]

theorem elementScript_ok {inPorts : Value} {values : List Value}
    (h : elementScript settings statements inPorts (.list values) = .ok script) (hv : v ∈ values) :
    ∃ n, v.entry "port_name" = .ok (.text n) := by
  obtain ⟨names, hnames, h1⟩ := bind_ok.1 h
  obtain ⟨joined, hjoined, h2⟩ := bind_ok.1 h1
  obtain ⟨text, htext, h3⟩ := bind_ok.1 h2
  obtain ⟨members, hmembers, h4⟩ := bind_ok.1 h3
  obtain ⟨lines, hlines, h5⟩ := bind_ok.1 h4
  obtain rfl : values = members := Except.ok.inj hmembers
  obtain ⟨line, -, hline⟩ := forall₂_mem_left (mapM_ok.1 hlines) hv
  simp only [sendLine, Value.textEntry, bind_ok] at hline
  obtain ⟨n, ⟨w, hw, hn⟩, -⟩ := hline
  obtain rfl := asText_ok.1 hn
  exact ⟨n, hw⟩

theorem draftOperator_ok (h : draftOperator c label s = .ok u s') (hs : s.operators = .list []) :
    (∀ v ∈ s.values, ∃ n, v.entry "port_name" = .ok (.text n)) ∧
    ∃ o : Operator, processName c.identifier = .ok o.process ∧ o.inPorts = .list s.inPorts ∧
      o.outPorts = .list s.outPorts ∧ s' = { s with operators := .list [o.toEntry] } := by
  simp only [draftOperator, run_parts] at h
  obtain ⟨script, hscript, o, ho, h⟩ := h
  obtain ⟨hprocess, hin, hout⟩ := scriptOperator_ok ho
  exact ⟨fun v hv => elementScript_ok hscript hv, o, hprocess, hin, hout, addOperators_ok h hs⟩

def shownGroups (e : Element) : Value := if e.groups.isTruthy then e.groups else .list []

def contextOf (settings : Settings) (options : GraphOptions) (schema : Value) (e : Element) : ElementContext :=
  { settings, options, element := e.toValue, identifier := .text e.name, groups := shownGroups e, schema }

theorem shownGroupsOf_element (e : Element) : shownGroupsOf e.toValue = .ok (shownGroups e) := by
  unfold shownGroupsOf Element.toValue
  cases e.single <;> rfl

theorem draftElement_steps {options : GraphOptions} {i : Nat} (h : draftElement settings options i e.toValue s = .ok u s') :
    ∃ schema label s1 s2 ms, draftParts (contextOf settings options schema e)
        [.key consumptionKey, .position i, .key "sql", .key "output"] (partsOf e) { graphs := s.graphs, layers := s.layers } = .ok () s1 ∧
      draftOperator (contextOf settings options schema e) label s1 = .ok () s2 ∧ (shownGroups e).members = .ok ms ∧
      ms.forM joinGraph s2 = .ok u s' := by
  simp only [draftElement, run_parts, run_modify_ok, entry_sql, entry_name, shownGroupsOf_element, Except.ok.injEq] at h
  obtain ⟨_, _, rfl, _, rfl, _, rfl, label, -, _, rfl, p, hp, schema, -, _, s1, h1, _, s2, h2, ms, hms, h3⟩ := h
  obtain rfl : partsOf e = p := Except.ok.inj hp
  exact ⟨schema, label, s1, s2, ms, h1, h2, hms, h3⟩

def elementConnections (e : Element) (m : String) : List Value :=
  e.outputs.flatMap fun item => outputConnections (.text e.name) item m

theorem draftElement_ok {position : Nat} (hgroups : NamedGroups e.groups)
    (hk : ∀ t, .table t ∈ e.outputs → ∀ k ∈ t.links, NamedGroups k.groups)
    (h : draftElement settings { serveResults := false, trackModels := false } position e.toValue s = .ok u s') :
    (Keyed s.graphs → Keyed s'.graphs) ∧ (∀ g, g ∈ s'.graphs.map Prod.fst ↔ g ∈ s.graphs.map Prod.fst ∨ InGroup e.groups g) ∧
    ∃ o, IsOperatorOf e o ∧ ∀ n,
      (graphAt s'.graphs n).operators = (graphAt s.graphs n).operators ++ List.replicate (listed e.groups n) o.toEntry ∧
      (graphAt s'.graphs n).connections =
        (graphAt s.graphs n).connections ++ (List.replicate (listed e.groups n) (elementConnections e n)).flatten := by
  obtain ⟨schema, label, s1, s2, ms, h1, h2, hms, h3⟩ := draftElement_steps h
  have hshown := shownGroupsOf_element e
  have hlisted := shownGroupsOf_listed hshown
  obtain ⟨hnamed, hin⟩ := shownGroupsOf_ok hshown
  rw [get_groups_element] at hnamed hin hlisted
  obtain ⟨hg, hsent⟩ := draftParts_grows (N := True) (fun _ => hnamed hgroups) (fun _ => hk) h1
  obtain ⟨hgraphs, hoperators⟩ := hg.others ⟨rfl, rfl⟩
  obtain ⟨hvalues, o, hprocess, hinPorts, houtPorts, rfl⟩ := draftOperator_ok h2 hoperators
  obtain ⟨hkeyed, hkeys, hlists⟩ := joinGraphs_ok (hnamed hgroups) hms h3 (hg.record trivial rfl)
  have hconns : ∀ m, s1.connections.listAt m = elementConnections e m := hg.connections ⟨rfl, rfl⟩ trivial rfl
  have htables : ∀ t, .table t ∈ e.outputs → ∃ n, t.name = .text n := by
    intro t ht
    rcases hsent _ ht t rfl with hn | ⟨v, hv, hname⟩
    · exact hn
    · obtain ⟨n, hn⟩ := hvalues v hv
      exact ⟨n, ok_unique hname hn⟩
  simp only [hgraphs, hin, hlisted, hconns] at hkeyed hkeys hlists
  refine ⟨hkeyed, hkeys, o, ⟨hprocess, ?_, ?_, htables⟩, fun n => ⟨?_, (hlists n).2⟩⟩
  · rw [hinPorts, hg.inPorts, List.nil_append]
  · rw [houtPorts, hg.outPorts, List.nil_append]
  · rw [(hlists n).1, Value.toList, List.flatten_replicate_singleton]

def Draftable (e : Element) : Prop :=
  NamedGroups e.groups ∧ ∀ t, .table t ∈ e.outputs → ∀ k ∈ t.links, NamedGroups k.groups

theorem draftElements_ok (he : ∀ e ∈ es, Draftable e) {n : Nat}
    (h : (((es.map Element.toValue).zipIdx n).forM fun (element, i) => do
      if element.isRecord then
        if ← element.has "sql" then
          draftElement settings { serveResults := false, trackModels := false } i element : DraftStep Unit) s =
      .ok u s') :
    (Keyed s.graphs → Keyed s'.graphs) ∧
    (∀ g, g ∈ s'.graphs.map Prod.fst ↔ g ∈ s.graphs.map Prod.fst ∨ ∃ e ∈ es, InGroup e.groups g) ∧
    ∃ os, List.Forall₂ IsOperatorOf es os ∧ ∀ m,
      (graphAt s'.graphs m).operators =
        (graphAt s.graphs m).operators ++ (es.zip os).flatMap (fun p => List.replicate (listed p.1.groups m) p.2.toEntry) ∧
      (graphAt s'.graphs m).connections = (graphAt s.graphs m).connections ++
        es.flatMap fun e => (List.replicate (listed e.groups m) (elementConnections e m)).flatten := by
  induction es generalizing n s with
  | nil =>
    cases h
    exact ⟨id, by simp, [], .nil, by simp⟩
  | cons e es ih =>
    have hsql : e.toValue.has "sql" = .ok true := by
      obtain ⟨name, origin, single, inputs, body, outputs, groups⟩ := e
      cases single <;> rfl
    rw [List.map_cons, List.zipIdx_cons] at h
    obtain ⟨_, t, ht, hrest⟩ := forM_cons_ok.1 h
    have hrecord : e.toValue.isRecord = true := rfl
    simp only [hrecord, if_true, hsql, run_parts, Except.ok.injEq] at ht
    obtain ⟨_, rfl, ht⟩ := ht
    obtain ⟨hgroups, hk⟩ := he e (.head _)
    obtain ⟨hkeyed, hkeys, o, ho, hlists⟩ := draftElement_ok hgroups hk ht
    obtain ⟨hkeyed', hkeys', os, hos, hlists'⟩ := ih (fun e' he' => he e' (.tail _ he')) hrest
    refine ⟨fun h => hkeyed' (hkeyed h), fun g => ?_, o :: os, .cons ho hos, fun m => ⟨?_, ?_⟩⟩
    · rw [hkeys', hkeys, List.exists_mem_cons_iff, or_assoc]
    · rw [(hlists' m).1, (hlists m).1, List.zip_cons_cons, List.flatMap_cons, List.append_assoc]
    · rw [(hlists' m).2, (hlists m).2, List.flatMap_cons, List.append_assoc]

theorem draftAll_elements {options : GraphOptions} (hs : s.layers.entry consumptionKey = .ok (.list (es.map Element.toValue)))
    (h : draftAll settings options s = .ok u s') :
    (((es.map Element.toValue).zipIdx 0).forM fun (element, i) => do
      if element.isRecord then
        if ← element.has "sql" then draftElement settings options i element : DraftStep Unit)
      { s with graphs := [] } = .ok u s' := by
  simp only [draftAll, run_parts, run_modify_ok] at h
  obtain ⟨layer, hlayer, elements, hel, _, _, rfl, h⟩ := h
  obtain rfl := ok_unique hs hlayer
  cases hel
  exact h

/-- The graphs of elements with their operators: each graph has the operators and the connections of the elements that name it, as often as
they name it. -/
structure Drafted (elements : List Element) (os : List Operator) (graphs : GraphDrafts) : Prop where
  keyed : Keyed graphs
  mem_graphs : ∀ g, g ∈ graphs.map Prod.fst ↔ ∃ e ∈ elements, InGroup e.groups g
  built : List.Forall₂ IsOperatorOf elements os
  operators : ∀ n, (graphAt graphs n).operators = (elements.zip os).flatMap fun p => List.replicate (listed p.1.groups n) p.2.toEntry
  connections : ∀ n, (graphAt graphs n).connections =
    elements.flatMap fun e => (List.replicate (listed e.groups n) (elementConnections e n)).flatten

theorem draftAll_ok (he : ∀ e ∈ es, Draftable e) (hs : s.layers.entry consumptionKey = .ok (.list (es.map Element.toValue)))
    (h : draftAll settings { serveResults := false, trackModels := false } s = .ok u s') : ∃ os, Drafted es os s'.graphs := by
  obtain ⟨hkeyed, hkeys, os, hos, hlists⟩ := draftElements_ok he (draftAll_elements hs h)
  exact ⟨os, hkeyed ⟨List.nodup_nil, by simp⟩, by simpa using hkeys, hos, fun n => (hlists n).1, fun n => (hlists n).2⟩

theorem drafting_run {step : DraftStep Unit} {s s' : Session} (h : drafting step s = .ok graphs s') :
    ∃ l d, s.settings.entry Setting.layers = .ok l ∧ step { layers := l } = .ok () d ∧ d.graphs = graphs ∧
      s'.settings = s.settings.set Setting.layers d.layers := by
  simp only [drafting, Job.layers, Job.setting, run_parts] at h
  obtain ⟨l, hl, h⟩ := h
  cases hd : step { layers := l } with
  | error e d =>
    simp only [hd, run_bind_ok, run_throw_ok, and_false, exists_false] at h
  | ok u d =>
    simp only [hd, run_bind_ok, run_pure_ok, Job.keepLayers, run_modify_ok] at h
    obtain ⟨_, _, rfl, rfl, rfl⟩ := h
    exact ⟨l, d, hl, hd, rfl, rfl⟩

end Graph

end TraceArtifacts
