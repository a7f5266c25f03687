import TraceArtifacts.Fault
import Mathlib.Data.List.Forall2

/-!
# Proofs: taking runs apart

A result that is there comes from parts whose results are there.
-/

namespace TraceArtifacts

variable {m : Type → Type} {u : Unit}

/-! ## Questions -/

section Questions

variable {R : α → β → Prop} {f : α → Outcome β} {xs : List α} {ys : List β}

theorem bind_ok {x : Outcome α} {b : β} : (x >>= f) = .ok b ↔ ∃ a, x = .ok a ∧ f a = .ok b := by
  cases x <;> simp [bind, Except.bind]

theorem pure_ok {a b : α} : (pure a : Outcome α) = .ok b ↔ a = b := by
  simp [pure, Except.pure]

theorem ok_unique {x : Outcome α} {a b : α} (ha : x = .ok a) (hb : x = .ok b) : a = b := Except.ok.inj (ha.symm.trans hb)

theorem eq_ok_of_toOption {x : Outcome α} {a : α} (h : x.toOption = some a) : x = .ok a := by
  cases x with
  | error e => cases h
  | ok b => exact congrArg Except.ok (Option.some.inj h)

theorem mapM_ok : xs.mapM f = .ok ys ↔ List.Forall₂ (fun x y => f x = .ok y) xs ys := by
  induction xs generalizing ys with
  | nil =>
    rw [List.mapM_nil, pure_ok, List.forall₂_nil_left_iff]
    exact eq_comm
  | cons x xs ih =>
    simp only [List.mapM_cons, bind_ok, pure_ok, List.forall₂_cons_left_iff]
    constructor
    · rintro ⟨y, hy, rest, hrest, rfl⟩
      exact ⟨y, rest, hy, ih.1 hrest, rfl⟩
    · rintro ⟨y, rest, hy, hrest, rfl⟩
      exact ⟨y, hy, rest, ih.2 hrest, rfl⟩

theorem forall₂_mem_right (h : List.Forall₂ R xs ys)
    {y : β} (hy : y ∈ ys) : ∃ x ∈ xs, R x y := by
  induction h with
  | nil => simp at hy
  | cons hx _ ih =>
    rcases List.mem_cons.1 hy with rfl | hy
    · exact ⟨_, .head _, hx⟩
    · obtain ⟨x, hx', hR⟩ := ih hy
      exact ⟨x, List.mem_cons_of_mem _ hx', hR⟩

theorem forall₂_mem_left (h : List.Forall₂ R xs ys)
    {x : α} (hx : x ∈ xs) : ∃ y ∈ ys, R x y :=
  forall₂_mem_right h.flip hx

theorem forall₂_mem (h : List.Forall₂ R xs ys) : List.Forall₂ (fun x y => x ∈ xs ∧ y ∈ ys ∧ R x y) xs ys := by
  induction h with
  | nil => exact .nil
  | cons hxy _ ih =>
    refine .cons ⟨.head _, .head _, hxy⟩ (ih.imp fun x y hr => ?_)
    exact ⟨List.mem_cons_of_mem _ hr.1, List.mem_cons_of_mem _ hr.2.1, hr.2.2⟩

theorem forall₂_comp {S : β → γ → Prop} {T : α → γ → Prop} (hT : ∀ {a b c}, R a b → S b c → T a c) {zs : List γ}
    (h1 : List.Forall₂ R xs ys) (h2 : List.Forall₂ S ys zs) : List.Forall₂ T xs zs := by
  induction h1 generalizing zs with
  | nil =>
    cases h2
    exact .nil
  | cons hab _ ih =>
    obtain ⟨c, zs', hbc, hrest, rfl⟩ := List.forall₂_cons_left_iff.1 h2
    exact .cons (hT hab hbc) (ih hrest)

theorem exists_mem_zipIdx {P : α → Prop} : (∃ p ∈ xs.zipIdx, P p.1) ↔ ∃ x ∈ xs, P x := by
  constructor
  · rintro ⟨p, hp, h⟩
    exact ⟨p.1, List.fst_mem_of_mem_zipIdx hp, h⟩
  · rintro ⟨x, hx, h⟩
    obtain ⟨i, hi⟩ := List.getElem?_of_mem hx
    exact ⟨(x, i), List.mem_zipIdx_iff_getElem?.2 hi, h⟩

theorem mem_gathered {f : α → Outcome (List β)} (h : (do return (← xs.mapM f).flatten : Outcome (List β)) = .ok ys) {y : β} :
    y ∈ ys ↔ ∃ x ∈ xs, ∃ part, f x = .ok part ∧ y ∈ part := by
  obtain ⟨parts, hp, he⟩ := bind_ok.1 h
  cases he
  have hall := mapM_ok.1 hp
  rw [List.mem_flatten]
  constructor
  · rintro ⟨part, hpart, hy⟩
    obtain ⟨x, hx, hfx⟩ := forall₂_mem_right hall hpart
    exact ⟨x, hx, part, hfx, hy⟩
  · rintro ⟨x, hx, part, hfx, hy⟩
    obtain ⟨part', hpart, hfx'⟩ := forall₂_mem_left hall hx
    obtain rfl := ok_unique hfx hfx'
    exact ⟨part, hpart, hy⟩

theorem gathered_part {f : α → Outcome (List β)} (h : (do return (← xs.mapM f).flatten : Outcome (List β)) = .ok ys) {x : α} (hx : x ∈ xs) :
    ∃ part, f x = .ok part := by
  obtain ⟨parts, hp, -⟩ := bind_ok.1 h
  obtain ⟨part, -, hfx⟩ := forall₂_mem_left (mapM_ok.1 hp) hx
  exact ⟨part, hfx⟩

end Questions

/-! ## Steps -/

section Steps

variable {ε σ α β : Type} {x : Outcome α} {a : α} {s s' : σ}

theorem run_bind_ok {x : EStateM ε σ α} {f : α → EStateM ε σ β} {b : β} :
    (x >>= f) s = .ok b s' ↔ ∃ a t, x s = .ok a t ∧ f a t = .ok b s' := by
  show EStateM.bind x f s = .ok b s' ↔ _
  unfold EStateM.bind
  cases x s <;> simp

theorem run_bind_of_ok {x : EStateM ε σ α} {f : α → EStateM ε σ β} {t : σ} (h : x s = .ok a t) : (x >>= f) s = f a t := by
  show EStateM.bind x f s = f a t
  unfold EStateM.bind
  rw [h]

theorem run_bind_of_error {x : EStateM ε σ α} {f : α → EStateM ε σ β} {e : ε} (h : x s = .error e s') : (x >>= f) s = .error e s' := by
  show EStateM.bind x f s = _
  rw [EStateM.bind, h]

theorem run_bind_congr {x y : EStateM ε σ α} {f g : α → EStateM ε σ β} (h : x s = y s) (hf : ∀ a t, x s = .ok a t → f a t = g a t) :
    (x >>= f) s = (y >>= g) s := by
  cases hx : x s with
  | ok a t => rw [run_bind_of_ok hx, run_bind_of_ok (h.symm.trans hx), hf a t hx]
  | error e t => rw [run_bind_of_error hx, run_bind_of_error (h.symm.trans hx)]

theorem run_pure_ok {b : α} : (pure a : EStateM ε σ α) s = .ok b s' ↔ a = b ∧ s = s' := by
  show EStateM.Result.ok a s = .ok b s' ↔ _
  simp

theorem run_get_ok {s s' a : σ} : (get : EStateM ε σ σ) s = .ok a s' ↔ s = a ∧ s = s' := by
  show EStateM.Result.ok s s = .ok a s' ↔ _
  simp

theorem run_set_ok {t : σ} {a : PUnit} : (set t : EStateM ε σ PUnit) s = .ok a s' ↔ t = s' := by
  show EStateM.Result.ok PUnit.unit t = .ok a s' ↔ _
  simp

theorem run_modify_ok {f : σ → σ} {a : PUnit} : (modify f : EStateM ε σ PUnit) s = .ok a s' ↔ f s = s' := by
  show EStateM.Result.ok PUnit.unit (f s) = .ok a s' ↔ _
  simp

theorem run_get_bind (f : σ → EStateM ε σ α) (s : σ) : (get >>= f : EStateM ε σ α) s = f s s := rfl

theorem run_throw_ok {e : ε} : (throw e : EStateM ε σ α) s = .ok a s' ↔ False := by
  show EStateM.Result.error e s = .ok a s' ↔ _
  simp

theorem run_lift_of_ok (h : x = .ok a) : (liftM x : EStateM Fault σ α) s = .ok a s := by
  subst h
  rfl

theorem run_lift_of_error {e : Fault} (h : x = .error e) : (liftM x : EStateM Fault σ α) s = .error e s := by
  subst h
  rfl

theorem run_lift_ok : (liftM x : EStateM Fault σ α) s = .ok a s' ↔ x = .ok a ∧ s = s' := by
  cases x with
  | ok b => rw [run_lift_of_ok rfl]; simp
  | error e => rw [run_lift_of_error rfl]; simp

theorem run_lift_bind_of_ok {f : α → EStateM Fault σ β} (h : x = .ok a) : (liftM x >>= f : EStateM Fault σ β) s = f a s :=
  run_bind_of_ok (run_lift_of_ok h)

theorem run_lift_bind_ok {f : α → EStateM Fault σ β} {b : β} :
    (liftM x >>= f : EStateM Fault σ β) s = .ok b s' ↔ ∃ a, x = .ok a ∧ f a s = .ok b s' := by
  cases x <;> simp [run_bind_ok, run_lift_ok]

theorem exists_state {p : Prop} {q : σ → Prop} : (∃ t, (p ∧ s = t) ∧ q t) ↔ p ∧ q s := by
  simp only [and_assoc, exists_and_left, exists_eq_left']

/-- The rules that take a run apart which answers questions on its way. -/
theorem run_parts :
    (∀ {ε σ α β : Type} {x : EStateM ε σ α} {f : α → EStateM ε σ β} {b s s'},
      (x >>= f) s = .ok b s' ↔ ∃ a t, x s = .ok a t ∧ f a t = .ok b s') ∧
    (∀ {ε σ α : Type} (f : σ → EStateM ε σ α) (s : σ), (get >>= f : EStateM ε σ α) s = f s s) ∧
    (∀ {σ α : Type} {x : Outcome α} {a} {s s' : σ}, (liftM x : EStateM Fault σ α) s = .ok a s' ↔ x = .ok a ∧ s = s') ∧
    ∀ {σ : Type} {p : Prop} {q : σ → Prop} {s : σ}, (∃ t, (p ∧ s = t) ∧ q t) ↔ p ∧ q s :=
  ⟨run_bind_ok, run_get_bind, run_lift_ok, exists_state⟩

theorem run_finally_ok {x : EStateM ε σ α} {f : EStateM ε σ β} : (tryFinally x f) s = .ok a s' ↔ ∃ t u, x s = .ok a t ∧ f t = .ok u s' := by
  show EStateM.map (fun y : α × β => y.1) (tryFinally' x fun _ => f) s = .ok a s' ↔ _
  simp only [EStateM.map, tryFinally']
  cases x s with
  | ok b t => cases hf : f t <;> simp [hf]
  | error e t => cases hf : f t <;> simp [hf]

theorem if_not_true (a b : α) : (if (!true) = true then a else b) = b := rfl

theorem lift_ok_eq (a : α) : (liftM (Except.ok a : Outcome α) : EStateM Fault σ α) = pure a := rfl

def succeedsWith (t : α → σ → Bool) : EStateM.Result ε σ α → Bool
  | .ok a s => t a s
  | .error .. => false

theorem exists_of_succeedsWith {t : α → σ → Bool} {r : EStateM.Result ε σ α}
    (h : succeedsWith t r = true) : ∃ a s, r = .ok a s ∧ t a s = true := by
  cases r with
  | ok a s => exact ⟨a, s, rfl, h⟩
  | error e s => cases h

end Steps

/-! ## Runs over lists -/

theorem mapM_congr_mem [Monad m] [LawfulMonad m] {f g : α → m β} {xs : List α} (h : ∀ x ∈ xs, f x = g x) : xs.mapM f = xs.mapM g := by
  induction xs with
  | nil => rfl
  | cons x xs ih =>
    rw [List.mapM_cons, List.mapM_cons, h x (.head _), ih fun y hy => h y (.tail _ hy)]

theorem mapM_congr_forall₂ [Monad m] [LawfulMonad m] {f : α → m γ} {g : β → m γ} {xs : List α} {ys : List β}
    (h : List.Forall₂ (fun x y => f x = g y) xs ys) : xs.mapM f = ys.mapM g := by
  induction h with
  | nil => rfl
  | cons hxy _ ih => rw [List.mapM_cons, List.mapM_cons, hxy, ih]

theorem forM_congr_mem [Monad m] {f g : α → m Unit} {xs : List α} (h : ∀ x ∈ xs, f x = g x) : forM xs f = forM xs g := by
  induction xs with
  | nil => rfl
  | cons x xs ih =>
    rw [List.forM_cons, List.forM_cons, h x (.head _), ih fun y hy => h y (.tail _ hy)]

section Runs

variable {ε σ α β : Type} {I : List α → σ → Prop} {f : α → EStateM ε σ Unit} {xs : List α} {s s' : σ}

theorem forM_cons_ok {x : α} : (x :: xs).forM f s = .ok u s' ↔ ∃ v t, f x s = .ok v t ∧ xs.forM f t = .ok u s' := by
  rw [List.forM_eq_forM, List.forM_cons]
  exact run_bind_ok

theorem forM_run_ok (step : ∀ x rest s u s', I (x :: rest) s → f x s = .ok u s' → I rest s') :
    ∀ {xs : List α} {s s' : σ} {u : Unit}, I xs s → xs.forM f s = .ok u s' → I [] s' := by
  intro xs
  induction xs with
  | nil =>
    intro s s' u hI h
    cases h
    exact hI
  | cons x xs ih =>
    intro s s' u hI h
    obtain ⟨u1, t, h1, h2⟩ := forM_cons_ok.1 h
    exact ih (step x xs s u1 t hI h1) h2

theorem mapM_run_ok {f : α → EStateM ε σ β} {R : α → β → Prop}
    (step : ∀ x rest s y s', I (x :: rest) s → f x s = .ok y s' → I rest s' ∧ R x y) :
    ∀ {xs : List α} {s s' : σ} {ys : List β}, I xs s → xs.mapM f s = .ok ys s' → I [] s' ∧ List.Forall₂ R xs ys := by
  intro xs
  induction xs with
  | nil =>
    intro s s' ys hI h
    rw [List.mapM_nil] at h
    cases h
    exact ⟨hI, .nil⟩
  | cons x xs ih =>
    intro s s' ys hI h
    rw [List.mapM_cons] at h
    obtain ⟨y, t, h1, h2⟩ := run_bind_ok.1 h
    obtain ⟨zs, t', h3, h4⟩ := run_bind_ok.1 h2
    cases h4
    obtain ⟨hI1, hR⟩ := step x xs s y t hI h1
    obtain ⟨hI2, hRs⟩ := ih hI1 h3
    exact ⟨hI2, .cons hR hRs⟩

end Runs

/-! ## What steps keep -/

section Keeps

variable {ε σ α β : Type} {I J : σ → Prop} {f : α → EStateM ε σ Unit} {xs : List α} {s s' : σ}

def Keeps (I : σ → Prop) (x : EStateM ε σ α) : Prop :=
  ∀ ⦃s : σ⦄ ⦃a : α⦄ ⦃s' : σ⦄, x s = .ok a s' → I s → I s'

theorem Keeps.bind {x : EStateM ε σ α} {f : α → EStateM ε σ β} (hx : Keeps I x) (hf : ∀ a, Keeps I (f a)) : Keeps I (x >>= f) := by
  intro s b s' h hI
  obtain ⟨a, t, h1, h2⟩ := run_bind_ok.1 h
  exact hf a h2 (hx h1 hI)

theorem keeps_pure (a : α) : Keeps I (pure a : EStateM ε σ α) := by
  intro s b s' h hI
  cases h
  exact hI

theorem keeps_get : Keeps I (get : EStateM ε σ σ) := by
  intro s b s' h hI
  cases h
  exact hI

theorem keeps_throw (e : ε) : Keeps I (throw e : EStateM ε σ α) := by
  intro s b s' h
  exact (run_throw_ok.1 h).elim

theorem keeps_lift {I : σ → Prop} (x : Outcome α) : Keeps I (liftM x : EStateM Fault σ α) := by
  intro s b s' h hI
  obtain ⟨-, rfl⟩ := run_lift_ok.1 h
  exact hI

theorem Keeps.lift {I : σ → Prop} {x : Outcome α} {f : α → EStateM Fault σ β} (hf : ∀ a, x = .ok a → Keeps I (f a)) :
    Keeps I (liftM x >>= f) := by
  intro s b s' h hI
  obtain ⟨a, hx, hrun⟩ := run_lift_bind_ok.1 h
  exact hf a hx hrun hI

theorem Keeps.forM (h : ∀ x ∈ xs, Keeps I (f x)) : Keeps I (xs.forM f) := by
  induction xs with
  | nil => exact keeps_pure _
  | cons x xs ih =>
    rw [List.forM_eq_forM, List.forM_cons]
    exact (h x (.head _)).bind (fun _ => ih (fun y hy => h y (.tail _ hy)))

theorem Keeps.ite {c : Prop} [Decidable c] {x y : EStateM ε σ α} (hx : Keeps I x) (hy : Keeps I y) : Keeps I (if c then x else y) := by
  by_cases h : c
  · rw [if_pos h]
    exact hx
  · rw [if_neg h]
    exact hy

theorem forM_run_mem (hf : ∀ x ∈ xs, Keeps I (f x)) (h : xs.forM f s = .ok u s')
    (hs : I s) {x : α} (hx : x ∈ xs) : ∃ t v t', I t ∧ f x t = .ok v t' := by
  induction xs generalizing s with
  | nil => simp at hx
  | cons y ys ih =>
    obtain ⟨v, t, hy, hrest⟩ := forM_cons_ok.1 h
    rcases List.mem_cons.1 hx with rfl | hx
    · exact ⟨s, v, t, hs, hy⟩
    · exact ih (fun z hz => hf z (.tail _ hz)) hrest (hf y (.head _) hy hs) hx

theorem forM_run_brings (hf : ∀ x ∈ xs, Keeps I (f x))
    (hJ : ∀ x ∈ xs, Keeps J (f x)) {x : α} (hx : x ∈ xs) (hbrings : ∀ {t v t'}, I t → f x t = .ok v t' → J t')
    (h : xs.forM f s = .ok u s') (hs : I s) : J s' := by
  induction xs generalizing s with
  | nil => simp at hx
  | cons y ys ih =>
    obtain ⟨v, t, hy, hrest⟩ := forM_cons_ok.1 h
    rcases List.mem_cons.1 hx with rfl | hx
    · exact Keeps.forM (fun z hz => hJ z (.tail _ hz)) hrest (hbrings hs hy)
    · exact ih (fun z hz => hf z (.tail _ hz)) (fun z hz => hJ z (.tail _ hz)) hx hrest (hf y (.head _) hy hs)

theorem foldlM_run_mem {f : β → α → EStateM ε σ β} (hf : ∀ b a, Keeps I (f b a)) {b b' : β}
    (h : xs.foldlM f b s = .ok b' s') (hs : I s) {x : α} (hx : x ∈ xs) :
    ∃ c t c' t', I t ∧ f c x t = .ok c' t' := by
  induction xs generalizing b s with
  | nil => simp at hx
  | cons y ys ih =>
    rw [List.foldlM_cons] at h
    obtain ⟨c, t, hy, hrest⟩ := run_bind_ok.1 h
    rcases List.mem_cons.1 hx with rfl | hx
    · exact ⟨b, s, c, t, hs, hy⟩
    · exact ih hrest (hf b y hy hs) hx

theorem Keeps.foldlM {f : β → α → EStateM ε σ β} (h : ∀ b a, Keeps I (f b a)) (xs : List α) (b : β) : Keeps I (xs.foldlM f b) := by
  induction xs generalizing b with
  | nil => exact keeps_pure _
  | cons x xs ih =>
    rw [List.foldlM_cons]
    exact (h b x).bind fun b' => ih b'

theorem foldlM_run_brings {f : β → α → EStateM ε σ β} (hf : ∀ b a, Keeps I (f b a)) (hJ : ∀ b a, Keeps J (f b a)) {x : α} (hx : x ∈ xs)
    (hbrings : ∀ {b t b' t'}, I t → f b x t = .ok b' t' → J t') {b b' : β}
    (h : xs.foldlM f b s = .ok b' s') (hs : I s) : J s' := by
  induction xs generalizing b s with
  | nil => simp at hx
  | cons y ys ih =>
    rw [List.foldlM_cons] at h
    obtain ⟨c, t, hy, hrest⟩ := run_bind_ok.1 h
    rcases List.mem_cons.1 hx with rfl | hx
    · exact Keeps.foldlM hJ ys c hrest (hbrings hs hy)
    · exact ih hx hrest (hf b y hy hs)

end Keeps

/-! ## Runs that mirror each other -/

section Mirrors

variable {ε σ τ α β γ δ : Type} {R : σ → τ → Prop}

def Mirrors (R : σ → τ → Prop) (P : α → β → Prop) (x : EStateM ε σ α) (y : EStateM ε τ β) : Prop :=
  ∀ ⦃s : σ⦄ ⦃t : τ⦄ ⦃a : α⦄ ⦃s' : σ⦄, R s t → x s = .ok a s' → ∃ b t', y t = .ok b t' ∧ R s' t' ∧ P a b

theorem Mirrors.bind {P : α → β → Prop} {Q : γ → δ → Prop} {x : EStateM ε σ α} {y : EStateM ε τ β}
    {f : α → EStateM ε σ γ} {g : β → EStateM ε τ δ} (hxy : Mirrors R P x y)
    (hfg : ∀ a b, P a b → Mirrors R Q (f a) (g b)) : Mirrors R Q (x >>= f) (y >>= g) := by
  intro s t c s' hR h
  obtain ⟨a, s1, ha, h⟩ := run_bind_ok.1 h
  obtain ⟨b, t1, hb, hR1, hP⟩ := hxy hR ha
  obtain ⟨d, t', hd, hR', hQ⟩ := hfg a b hP hR1 h
  exact ⟨d, t', run_bind_ok.2 ⟨b, t1, hb, hd⟩, hR', hQ⟩

theorem mirrors_pure {P : α → β → Prop} {a : α} {b : β} (h : P a b) : Mirrors R P (pure a : EStateM ε σ α) (pure b) := by
  intro s t a' s' hR hrun
  cases hrun
  exact ⟨b, t, rfl, hR, h⟩

theorem mirrors_get : Mirrors R R (get : EStateM ε σ σ) get := by
  intro s t a s' hR hrun
  cases hrun
  exact ⟨t, t, rfl, hR, hR⟩

theorem mirrors_throw {P : α → β → Prop} (e e' : ε) : Mirrors R P (throw e : EStateM ε σ α) (throw e') := by
  intro s t a s' hR hrun
  exact (run_throw_ok.1 hrun).elim

theorem mirrors_modify {f : σ → σ} {g : τ → τ} (h : ∀ {s t}, R s t → R (f s) (g t)) :
    Mirrors R Eq (modify f : EStateM ε σ PUnit) (modify g) := by
  intro s t a s' hR hrun
  obtain rfl := run_modify_ok.1 hrun
  exact ⟨a, g t, rfl, h hR, rfl⟩

theorem mirrors_lift {R : σ → τ → Prop} {P : α → β → Prop} {x : Outcome α} {y : Outcome β} (h : ∀ a, x = .ok a → ∃ b, y = .ok b ∧ P a b) :
    Mirrors R P (liftM x : EStateM Fault σ α) (liftM y : EStateM Fault τ β) := by
  intro s t a s' hR hrun
  obtain ⟨ha, rfl⟩ := run_lift_ok.1 hrun
  obtain ⟨b, hb, hP⟩ := h a ha
  exact ⟨b, t, run_lift_of_ok hb, hR, hP⟩

theorem Mirrors.forM {P : α → β → Prop} {f : α → EStateM ε σ Unit} {g : β → EStateM ε τ Unit} {xs : List α} {ys : List β}
    (hxs : List.Forall₂ P xs ys) (h : ∀ a ∈ xs, ∀ b, P a b → Mirrors R Eq (f a) (g b)) :
    Mirrors R Eq (xs.forM f) (ys.forM g) := by
  induction hxs with
  | nil => exact mirrors_pure rfl
  | cons hab _ ih =>
    rw [List.forM_eq_forM, List.forM_eq_forM, List.forM_cons, List.forM_cons]
    exact (h _ (.head _) _ hab).bind fun _ _ _ => ih fun a ha => h a (.tail _ ha)

theorem Mirrors.mapM {P : α → β → Prop} {Q : γ → δ → Prop} {f : α → EStateM ε σ γ} {g : β → EStateM ε τ δ} {xs : List α}
    {ys : List β} (hxs : List.Forall₂ P xs ys) (h : ∀ a ∈ xs, ∀ b, P a b → Mirrors R Q (f a) (g b)) :
    Mirrors R (List.Forall₂ Q) (xs.mapM f) (ys.mapM g) := by
  induction hxs with
  | nil => exact mirrors_pure .nil
  | cons hab _ ih =>
    rw [List.mapM_cons, List.mapM_cons]
    refine (h _ (.head _) _ hab).bind fun c d hcd => ?_
    refine (ih fun a ha => h a (.tail _ ha)).bind fun cs ds hcds => ?_
    exact mirrors_pure (.cons hcd hcds)

end Mirrors

end TraceArtifacts
