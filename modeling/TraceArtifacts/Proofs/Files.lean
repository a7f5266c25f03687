import TraceArtifacts.Proofs.Relations
import TraceArtifacts.Writing

/-!
# Proofs: files are read as they were written

A file is put where its path leads.
-/

namespace TraceArtifacts

variable {t t' tree : FileTree} {cwd loc q : Location} {s s' : Session} {content p : String} {u : Unit}

namespace FileTree

theorem lookup_filter (f : Location → Bool) (entries : List (Location × Node)) (q : Location) :
    (entries.filter fun e => f e.1).lookup q = if f q then entries.lookup q else none := by
  induction entries with
  | nil => cases f q <;> rfl
  | cons e rest ih =>
    obtain ⟨r, n⟩ := e
    by_cases hr : q = r
    · subst hr
      cases hf : f q with
      | true => rw [List.filter_cons_of_pos (by simpa using hf)]; simp
      | false =>
        rw [List.filter_cons_of_neg (by simp [hf]), ih, hf, if_neg Bool.false_ne_true, if_neg Bool.false_ne_true]
    · have hq : (q == r) = false := beq_eq_false_iff_ne.2 hr
      cases hf : f r with
      | true => rw [List.filter_cons_of_pos (by simpa using hf), List.lookup_cons, List.lookup_cons, hq]; exact ih
      | false => rw [List.filter_cons_of_neg (by simp [hf]), List.lookup_cons, hq]; exact ih

theorem find?_put_ne {p : Location} (h : q ≠ p) (n : Node) (t : FileTree) : (t.put p n).find? q = t.find? q := by
  have hlast : ([(p, n)] : List (Location × Node)).lookup q = none := by
    rw [List.lookup_cons, beq_eq_false_iff_ne.2 h]
    rfl
  unfold find? put
  rw [List.lookup_append, lookup_filter (· != p), if_pos (bne_iff_ne.2 h), hlast, Option.or_none]

theorem find?_put_self {p : Location} (h : p ≠ []) (n : Node) (t : FileTree) : (t.put p n).find? p = some n := by
  have hempty : p.isEmpty = false := by simpa using h
  unfold find? put
  rw [hempty, List.lookup_append, lookup_filter (· != p), if_neg (by simp)]
  simp

theorem follow_put (hloc : t.find? loc ≠ some .directory) (n : Node) :
    ∀ {names : List String} {here r : Location}, t.follow here names = .ok r → (t.put loc n).follow here names = .ok r := by
  intro names
  induction names with
  | nil => exact fun h => h
  | cons name rest ih =>
    intro here r h
    cases hfind : t.find? here with
    | none => simp [follow, hfind] at h
    | some node =>
      cases node with
      | file content => simp [follow, hfind] at h
      | directory =>
        have hne : here ≠ loc := fun heq => hloc (heq ▸ hfind)
        rw [follow, hfind] at h
        rw [follow, find?_put_ne hne, hfind]
        simp only at h ⊢
        split
        · rw [if_pos ‹_›] at h
          exact ih h
        · rw [if_neg ‹_›] at h
          split
          · rw [if_pos ‹_›] at h
            cases h
          · rw [if_neg ‹_›] at h
            exact ih h

theorem locate_put (hloc : t.find? loc ≠ some .directory) (n : Node) {r : Location} (h : t.locate cwd p = .ok r) :
    (t.put loc n).locate cwd p = .ok r := by
  unfold locate at h ⊢
  split
  · rw [if_pos ‹_›] at h
    cases h
  · rw [if_neg ‹_›] at h
    split
    · rw [if_pos ‹_›] at h
      cases h
    · rw [if_neg ‹_›] at h
      exact follow_put hloc n h

def putFile (p content : String) (loc : Location) (t : FileTree) : Outcome FileTree := do
  if asksDirectory p then throw .isDirectory
  match t.find? loc with
  | some .directory => throw .isDirectory
  | _ => return t.put loc (.file content)

theorem write_eq (cwd : Location) (p content : String) (t : FileTree) : write cwd p content t = (do
      let loc ← t.locate cwd p
      if baseName p == "." then do
        let _ ← t.nodeAt cwd p
        putFile p content loc t
      else putFile p content loc t) := rfl

theorem putFile_ok (h : putFile p content loc t = .ok t') :
    asksDirectory p = false ∧ t.find? loc ≠ some .directory ∧ t' = t.put loc (.file content) := by
  unfold putFile at h
  cases hasks : asksDirectory p with
  | true =>
    rw [hasks] at h
    cases h
  | false =>
    rw [hasks] at h
    refine ⟨rfl, ?_⟩
    cases hfind : t.find? loc with
    | none =>
      rw [hfind] at h
      exact ⟨by simp, (Except.ok.inj h).symm⟩
    | some node =>
      rw [hfind] at h
      cases node with
      | directory => cases h
      | file old => exact ⟨by simp, (Except.ok.inj h).symm⟩

theorem write_ok (h : write cwd p content t = .ok t') :
    ∃ loc, t.locate cwd p = .ok loc ∧ asksDirectory p = false ∧ t.find? loc ≠ some .directory ∧ t' = t.put loc (.file content) := by
  rw [write_eq] at h
  obtain ⟨loc, hloc, h⟩ := bind_ok.1 h
  refine ⟨loc, hloc, ?_⟩
  split at h
  · obtain ⟨_, -, h⟩ := bind_ok.1 h
    exact putFile_ok h
  · exact putFile_ok h

theorem nodeAt_file (hloc : t.locate cwd p = .ok loc) (hasks : asksDirectory p = false) (hfind : t.find? loc = some (.file content)) :
    t.nodeAt cwd p = .ok (.file content) := by
  rw [nodeAt, hloc]
  simp only [bind, Except.bind, hfind, hasks]
  rfl

theorem read_write (h : write cwd p content t = .ok t') : t'.read cwd p = .ok content := by
  obtain ⟨loc, hloc, hasks, hfind, rfl⟩ := write_ok h
  have hne : loc ≠ [] := by
    rintro rfl
    exact hfind rfl
  rw [read, nodeAt_file (locate_put hfind _ hloc) hasks (find?_put_self hne _ t)]
  rfl

theorem read_ok (h : t.read cwd p = .ok content) :
    ∃ loc, t.locate cwd p = .ok loc ∧ asksDirectory p = false ∧ t.find? loc = some (.file content) := by
  obtain ⟨node, hnode, h⟩ := bind_ok.1 h
  obtain ⟨loc, hloc, hnode⟩ := bind_ok.1 hnode
  refine ⟨loc, hloc, ?_⟩
  cases hfind : t.find? loc with
  | none =>
    rw [hfind] at hnode
    cases hnode
  | some found =>
    rw [hfind] at hnode
    cases found with
    | directory =>
      cases hnode
      cases h
    | file old =>
      cases hasks : asksDirectory p with
      | true =>
        rw [hasks] at hnode
        cases hnode
      | false =>
        rw [hasks] at hnode
        cases hnode
        cases h
        exact ⟨rfl, rfl⟩

theorem read_after_write {cwd' : Location} {q old : String} (h : write cwd p content t = .ok t') (hread : t.read cwd' q = .ok old) :
    ∃ new, t'.read cwd' q = .ok new := by
  obtain ⟨loc, -, -, hfind, rfl⟩ := write_ok h
  obtain ⟨loc', hloc', hasks, hfind'⟩ := read_ok hread
  have hlocated := locate_put hfind (.file content) hloc'
  by_cases heq : loc' = loc
  · subst heq
    have hne : loc' ≠ [] := by
      rintro rfl
      exact hfind rfl
    refine ⟨content, ?_⟩
    rw [read, nodeAt_file hlocated hasks (find?_put_self hne _ t)]
    rfl
  · refine ⟨old, ?_⟩
    rw [read, nodeAt_file hlocated hasks ((find?_put_ne heq _ t).trans hfind')]
    rfl

theorem apply_of_ok {f : FileTree → Outcome FileTree} {t' : FileTree} (h : f t = .ok t') : TreeStep.apply f t = .ok () t' := by
  show (liftM (f t) >>= set : TreeStep Unit) t = .ok () t'
  rw [h]
  rfl

theorem apply_of_error {f : FileTree → Outcome FileTree} {e : Fault} (h : f t = .error e) : TreeStep.apply f t = .error e t := by
  show (liftM (f t) >>= set : TreeStep Unit) t = .error e t
  rw [h]
  rfl

end FileTree

theorem Job.onTree_of_ok {step : Location → FileTree.TreeStep Unit} (h : step s.cwd s.tree = .ok u tree) :
    Job.onTree step s = .ok () { s with tree } := by
  rw [Job.onTree, run_get_bind]
  simp only [h]
  rfl

theorem Job.onTree_of_error {step : Location → FileTree.TreeStep Unit} {e : Fault} (h : step s.cwd s.tree = .error e tree) :
    Job.onTree step s = .error e { s with tree } := by
  rw [Job.onTree, run_get_bind]
  simp only [h]
  rfl

theorem Job.onTree_ok {step : Location → FileTree.TreeStep Unit} (h : Job.onTree step s = .ok u s') :
    ∃ tree, step s.cwd s.tree = .ok () tree ∧ s' = { s with tree } := by
  cases hstep : step s.cwd s.tree with
  | ok v tree =>
    rw [Job.onTree_of_ok hstep] at h
    exact ⟨tree, rfl, (EStateM.Result.ok.inj h).2.symm⟩
  | error e tree =>
    rw [Job.onTree_of_error hstep] at h
    cases h

def writtenInto (cwd : Location) (path name : Value) (content : String) (t : FileTree) : Outcome FileTree := do
  if ← t.isThere cwd path then
    let path ← path.asText
    let name ← name.asText
    FileTree.write cwd (joinPaths path name) content t
  else throw (.noDirectory path.display)

def ofTree (s : Session) : Outcome FileTree → EStateM.Result Fault Session Unit
  | .ok tree => .ok () { s with tree }
  | .error e => .error e s

theorem Job.writeFile_eq (path name : Value) (content : String) (s : Session) :
    Job.writeFile path name content s = ofTree s (writtenInto s.cwd path name content s.tree) := by
  have hrequire : Job.requirePath path s = (liftM (s.tree.isThere s.cwd path) >>= fun b =>
      if !b then throw (.noDirectory path.display) else pure () : Job Unit) s := rfl
  rw [Job.writeFile, writtenInto]
  cases hthere : s.tree.isThere s.cwd path with
  | error e =>
    rw [hthere, run_bind_of_error (run_lift_of_error rfl)] at hrequire
    rw [run_bind_of_error hrequire]
    rfl
  | ok b =>
    rw [hthere, run_lift_bind_of_ok rfl] at hrequire
    cases b with
    | false =>
      rw [run_bind_of_error hrequire]
      rfl
    | true =>
      rw [run_bind_of_ok hrequire]
      cases path.asText with
      | error e => rfl
      | ok p =>
        cases name.asText with
        | error e => rfl
        | ok n =>
          rw [lift_ok_eq, pure_bind, lift_ok_eq, pure_bind]
          simp only [bind, Except.bind, if_true]
          cases hwrite : FileTree.write s.cwd (joinPaths p n) content s.tree with
          | ok tree => exact Job.onTree_of_ok (FileTree.apply_of_ok hwrite)
          | error e => exact Job.onTree_of_error (FileTree.apply_of_error hwrite)

theorem Job.writeFile_run {path name : Value} (h : Job.writeFile path name content s = .ok u s') :
    ∃ directory file tree, path = .text directory ∧ name = .text file ∧
      FileTree.write s.cwd (joinPaths directory file) content s.tree = .ok tree ∧ s' = { s with tree } := by
  rw [Job.writeFile_eq] at h
  cases hw : writtenInto s.cwd path name content s.tree with
  | error e =>
    rw [hw] at h
    cases h
  | ok tree =>
    rw [hw] at h
    obtain ⟨-, rfl⟩ := EStateM.Result.ok.inj h
    obtain ⟨b, -, hw⟩ := bind_ok.1 hw
    cases b with
    | false => cases hw
    | true =>
      obtain ⟨directory, hdirectory, hw⟩ := bind_ok.1 hw
      obtain ⟨file, hfile, hw⟩ := bind_ok.1 hw
      exact ⟨directory, file, tree, asText_ok.1 hdirectory, asText_ok.1 hfile, hw, rfl⟩

theorem Job.writeFile_ok {path name : Value} (h : Job.writeFile path name content s = .ok u s') :
    ∃ directory file, path = .text directory ∧ name = .text file ∧ s'.settings = s.settings ∧
      s'.tree.read s'.cwd (joinPaths directory file) = .ok content := by
  obtain ⟨directory, file, tree, hdirectory, hfile, hwrite, rfl⟩ := Job.writeFile_run h
  exact ⟨directory, file, hdirectory, hfile, rfl, FileTree.read_write hwrite⟩

end TraceArtifacts
