import Mathlib.Tactic.Ring
import TraceArtifacts.Draw.Network
import TraceArtifacts.Proofs.Steps

/-!
# Proofs: the two pictures of a network

Upright or lying, a network is drawn with a circle for each neuron and a line for each pair of neurons of neighbouring layers.
-/

namespace TraceArtifacts.Draw

variable {α β : Type} {circles circles' : List (List Value)} {lines lines' : Nat} {n : Network}

/-- What the picture was told to make, as the arguments of each call. -/
def Sketch.made (s : Sketch) (action : String) : List (List Value) :=
  (s.strokes.filter fun k => k.pen == some picture && k.action == action).map Stroke.arguments

/-- Whatever is there already, the step ends and adds these circles and as many lines. -/
def Draws (x : Drawing α) (circles : List (List Value)) (lines : Nat) : Prop :=
  ∀ s, ∃ a s', x s = .ok a s' ∧ s'.made "Circle" = s.made "Circle" ++ circles ∧
    (s'.made "Line2D").length = (s.made "Line2D").length + lines

/-! ## Steps -/

theorem draws_pure (a : α) : Draws (pure a) [] 0 := fun s => ⟨a, s, rfl, (List.append_nil _).symm, rfl⟩

theorem Draws.bind {x : Drawing α} {f : α → Drawing β} (hx : Draws x circles lines) (hf : ∀ a, Draws (f a) circles' lines') :
    Draws (x >>= f) (circles ++ circles') (lines + lines') := by
  intro s
  obtain ⟨a, s₁, hrun, hcircles, hlines⟩ := hx s
  obtain ⟨b, s₂, hrun', hcircles', hlines'⟩ := hf a s₁
  refine ⟨b, s₂, (run_bind_of_ok hrun).trans hrun', ?_, ?_⟩
  · rw [hcircles', hcircles, List.append_assoc]
  · rw [hlines', hlines, Nat.add_assoc]

/-- Steps that draw nothing may come before and behind. -/
theorem Draws.between {x : Drawing α} {f : α → Drawing β} (hx : Draws x [] 0) (hf : ∀ a, Draws (f a) circles lines) :
    Draws (x >>= f) circles lines := by
  simpa using hx.bind hf

theorem Draws.silently {x : Drawing α} {f : α → Drawing β} (hx : Draws x circles lines) (hf : ∀ a, Draws (f a) [] 0) :
    Draws (x >>= f) circles lines := by
  simpa using hx.bind hf

theorem draws_forM {f : α → Drawing Unit} {c : α → List (List Value)} {l : α → Nat} (xs : List α)
    (h : ∀ x ∈ xs, Draws (f x) (c x) (l x)) : Draws (xs.forM f) (xs.flatMap c) (xs.map l).sum := by
  induction xs with
  | nil => exact draws_pure ()
  | cons x xs ih =>
    rw [List.forM_eq_forM, List.forM_cons, List.flatMap_cons, List.map_cons, List.sum_cons]
    exact (h x (.head _)).bind fun _ => ih fun y hy => h y (.tail _ hy)

theorem draws_forM_circles {f : α → Drawing Unit} {c : α → List Value} (xs : List α) (h : ∀ x, Draws (f x) [c x] lines) :
    Draws (xs.forM f) (xs.map c) (xs.length * lines) := by
  simpa [← List.map_eq_flatMap] using draws_forM xs fun x _ => h x

theorem draws_forM_figures {f : α → Drawing Unit} {c : α → List (List Value)} (xs : List α) (h : ∀ x, Draws (f x) (c x) 0) :
    Draws (xs.forM f) (xs.flatMap c) 0 := by
  simpa using draws_forM xs fun x _ => h x

theorem draws_forM_lines {f : α → Drawing Unit} {l : α → Nat} (xs : List α) (h : ∀ x, Draws (f x) [] (l x)) :
    Draws (xs.forM f) [] (xs.map l).sum := by
  have hnone : (xs.flatMap fun _ => []) = ([] : List (List Value)) := List.flatMap_eq_nil_iff.2 fun _ _ => rfl
  exact hnone ▸ draws_forM xs fun x _ => h x

theorem made_append (s : Sketch) (k : Stroke) (action : String) : ({ s with strokes := s.strokes ++ [k] } : Sketch).made action =
    s.made action ++ if k.pen == some picture && k.action == action then [k.arguments] else [] := by
  rw [Sketch.made, List.filter_append, List.map_append]
  cases h : k.pen == some picture && k.action == action <;> simp [Sketch.made, h]

theorem draws_tell {pen action : String} {arguments : List Value} {options : Fields} (h : action ≠ "Circle" ∧ action ≠ "Line2D") :
    Draws (Drawing.tell pen action arguments options) [] 0 := by
  intro s
  refine ⟨_, _, rfl, ?_, ?_⟩ <;> rw [made_append] <;> simp [h]

theorem draws_tell' {pen action : String} {arguments : List Value} {options : Fields} (h : action ≠ "Circle" ∧ action ≠ "Line2D") :
    Draws (Drawing.tell' pen action arguments options) [] 0 := (draws_tell h).bind fun _ => draws_pure _

theorem draws_circle (arguments : List Value) (options : Fields) : Draws (Drawing.tell picture "Circle" arguments options) [arguments] 0 := by
  intro s
  refine ⟨_, _, rfl, ?_, ?_⟩ <;> rw [made_append] <;> simp

theorem draws_line (arguments : List Value) (options : Fields) : Draws (Drawing.tell picture "Line2D" arguments options) [] 1 := by
  intro s
  refine ⟨_, _, rfl, ?_, ?_⟩ <;> rw [made_append] <;> simp

theorem draws_addToAxes {action : String} (item : String) (h : action ≠ "Circle" ∧ action ≠ "Line2D") :
    Draws (addToAxes action item) [] 0 := (draws_tell (by decide)).bind fun _ => draws_tell' h

theorem draws_lift {x : Outcome α} {a : α} {f : α → Drawing β} (hx : x = .ok a) (hf : Draws (f a) circles lines) :
    Draws (do f (← x)) circles lines := by
  subst hx
  exact hf

theorem quotient_ok (a : Float) {b : Int} (hb : b ≠ 0) : quotient a b = .ok (a / Float.ofInt b) := if_neg hb

/-! ## Upright -/

def circlesOf (layer : Int × List Int) : List (List Value) := layer.2.map fun x => [.list [.float (Float.ofInt x), .int layer.1]]

theorem draws_drawNeuron (x y : Int) : Draws (drawNeuron x y) [[.list [.float (Float.ofInt x), .int y]]] 0 :=
  (draws_circle _ _).bind fun _ => draws_addToAxes _ (by decide)

theorem draws_drawLine (x₁ x₂ : Int) {y₁ y₂ : Int} (hy : y₁ ≠ y₂) : Draws (drawLine x₁ y₁ x₂ y₂) [] 1 := by
  have hline : ∃ ends, lineBetween x₁ y₁ x₂ y₂ = .ok ends := by
    rw [lineBetween, quotient_ok _ (by omega)]
    exact ⟨_, rfl⟩
  obtain ⟨ends, hline⟩ := hline
  exact draws_lift hline ((draws_line _ _).bind fun _ => draws_addToAxes _ (by decide))

theorem draws_drawLayer (n : Network) (label : String) {before : Option (Int × List Int)} {y : Int} (xs : List Int)
    (hy : ∀ layer ∈ before, y ≠ layer.1) :
    Draws (drawLayer n label before y xs) (circlesOf (y, xs)) (xs.length * before.elim 0 fun layer => layer.2.length) := by
  rw [drawLayer, ← List.append_nil (circlesOf _), ← Nat.add_zero (_ * _)]
  refine (draws_forM_circles xs fun x => ?_).bind fun _ => draws_tell' (by decide)
  rw [← Nat.zero_add (before.elim _ _)]
  cases before with
  | none => exact (draws_drawNeuron x y).bind fun _ => draws_pure _
  | some layer =>
    have hcount : (layer.2.map fun _ => 1).sum = layer.2.length := by simp
    rw [Option.elim_some, ← hcount]
    exact (draws_drawNeuron x y).bind fun _ => draws_forM_lines layer.2 fun x' => draws_drawLine x x' (hy layer rfl)

/-- The number of pairs of neurons of neighbouring layers. -/
def edges (sizes : List Nat) : Nat := ((sizes.zip sizes.tail).map fun p => p.1 * p.2).sum

theorem length_placesFrom (x : Int) (k : Nat) : (Network.placesFrom x k).length = k := by
  induction k generalizing x with
  | zero => rfl
  | succ k ih => rw [Network.placesFrom, List.length_cons, ih]

/-- The heights of neighbouring layers differ, so no line is upright and the slope of each can be taken. -/
theorem draws_drawLayers (n : Network) (count : Nat) (before : Option (Int × List Int)) (k : Nat) (y : Int) (sizes : List Nat)
    (hy : ∀ layer ∈ before, y ≠ layer.1) : Draws (drawLayers n count k before (n.layersFrom y (sizes.map (↑))))
      ((n.layersFrom y (sizes.map (↑))).flatMap circlesOf) (edges ((before.map fun layer => layer.2.length).toList ++ sizes)) := by
  induction sizes generalizing before k y with
  | nil => cases before <;> exact draws_pure ()
  | cons size sizes ih =>
    have hlayer := draws_drawLayer n (layerLabel count k) (Network.placesFrom (n.leftMargin size) size) hy
    have hrest := ih (some (y, Network.placesFrom (n.leftMargin size) size)) (k + 1) (y + Network.layerDistance) (by
      rintro _ ⟨⟩
      simp [Network.layerDistance])
    rw [length_placesFrom] at hlayer
    rw [Option.map_some, length_placesFrom] at hrest
    have hedges : edges ((before.map fun layer => layer.2.length).toList ++ size :: sizes) =
        size * (before.elim 0 fun layer => layer.2.length) + edges (size :: sizes) := by
      cases before with
      | none => simp
      | some layer => simp [edges, Nat.mul_comm]
    rw [hedges]
    exact hlayer.bind fun _ => hrest

def Network.ofSizes (widest : Nat) (sizes : List Nat) : Network := ⟨widest, sizes.map (↑)⟩

theorem draws_drawVertical (widest : Nat) (sizes : List Nat) :
    Draws (drawVertical (.ofSizes widest sizes)) ((Network.ofSizes widest sizes).layers.flatMap circlesOf) (edges sizes) := by
  rw [← List.append_nil (List.flatMap ..), ← Nat.add_zero (edges sizes)]
  refine Draws.bind (draws_drawLayers (.ofSizes widest sizes) _ none 0 0 sizes (by simp)) fun _ => ?_
  exact (draws_tell' (by decide)).bind fun _ => (draws_tell' (by decide)).bind fun _ => draws_tell' (by decide)

/-! ## Lying -/

theorem distances_ok (b : Bounds) {sizes : List Int} {widest : Int} (hgreatest : greatest sizes = .ok widest) (hwidest : widest ≠ 0)
    (hlen : (sizes.length : Int) - 1 ≠ 0) : ∃ d, distances b sizes = .ok d := by
  rw [distances, hgreatest]
  show ∃ d, (do
    let v ← quotient (b.top - b.bottom) widest
    let h ← quotient (b.right - b.left) ((sizes.length : Int) - 1)
    return (v, h) : Outcome (Float × Float)) = .ok d
  rw [quotient_ok _ hwidest, quotient_ok _ hlen]
  exact ⟨_, rfl⟩

def columnCircles (b : Bounds) (v h : Float) (size : Int) (k : Nat) : List (List Value) := (List.range size.toNat).map fun m =>
  [.list [.float (Float.ofNat k * h + b.left), .float (layerTop b v size - Float.ofNat m * v)], .float (v / 4.0)]

theorem draws_drawColumn (axes : String) (b : Bounds) (v h : Float) (size : Int) (k : Nat) :
    Draws (drawColumn axes b v h size k) (columnCircles b v h size k) 0 := by
  rw [← Nat.mul_zero (List.range size.toNat).length]
  exact draws_forM_circles _ fun m => (draws_circle _ _).silently fun _ => draws_tell' (by decide)

theorem draws_drawEdges (axes : String) (b : Bounds) (v h : Float) (size next : Int) (k : Nat) :
    Draws (drawEdges axes b v h size next k) [] (size.toNat * next.toNat) := by
  have hcount : ((List.range size.toNat).map fun _ => ((List.range next.toNat).map fun _ => 1).sum).sum = size.toNat * next.toNat := by simp
  rw [drawEdges, ← hcount]
  exact draws_forM_lines _ fun m => draws_forM_lines _ fun o => (draws_line _ _).silently fun _ => draws_tell' (by decide)

theorem greatest_spec {sizes : List Nat} (hne : sizes ≠ []) : ∃ widest ∈ sizes, (∀ k ∈ sizes, k ≤ widest) ∧
    greatest (sizes.map (↑)) = .ok (widest : Int) := by
  obtain ⟨first, rest, rfl⟩ := List.exists_cons_of_ne_nil hne
  obtain ⟨hmem, hle⟩ := List.max?_eq_some_iff.1 (@List.max?_cons' Int first _ (rest.map (↑)))
  obtain ⟨widest, hwidest, heq⟩ := List.mem_map.1 (List.map_cons ▸ hmem)
  refine ⟨widest, hwidest, fun k hk => ?_, congrArg Except.ok heq.symm⟩
  have := hle k (List.mem_map_of_mem (f := (Nat.cast : Nat → Int)) hk)
  omega

theorem sum_map_zipIdx (f : α → Nat) (xs : List α) : (xs.zipIdx.map fun p => f p.1).sum = (xs.map f).sum := by
  have := congrArg (List.map f) (List.zipIdx_map_fst 0 xs)
  rw [List.map_map] at this
  exact congrArg List.sum this

theorem draws_drawHorizontal {widest : Nat} {sizes : List Nat} (hlen : 2 ≤ sizes.length) (hwidest : 0 < widest)
    (hgreatest : greatest (sizes.map (↑)) = .ok (widest : Int)) :
    ∃ circles, circles.length = sizes.sum ∧ Draws (drawHorizontal (.ofSizes widest sizes)) circles (edges sizes) := by
  have hsizes : ((Network.ofSizes widest sizes).sizes.map fun s => (s.toNat : Int)) = sizes.map (↑) := by simp [Network.ofSizes]
  obtain ⟨⟨v, h⟩, hd⟩ := distances_ok {} hgreatest (by omega) (by rw [List.length_map]; omega)
  refine ⟨(sizes.map (↑)).zipIdx.flatMap fun p => columnCircles {} v h p.1 p.2, ?_, ?_⟩
  · have hcount : (sizes.map (Nat.cast : Nat → Int)).map Int.toNat = sizes := by simp [Function.comp_def]
    simp only [List.length_flatMap, columnCircles, List.length_map, List.length_range, sum_map_zipIdx Int.toNat, hcount]
  · have hlines : (((sizes.map (Nat.cast : Nat → Int)).zip (sizes.map (Nat.cast : Nat → Int)).tail).zipIdx.map fun p =>
        p.1.1.toNat * p.1.2.toNat).sum = edges sizes := by
      rw [sum_map_zipIdx fun q : Int × Int => q.1.toNat * q.2.toNat, ← List.map_tail, List.zip_map, List.map_map]
      rfl
    rw [drawHorizontal]
    refine (draws_tell' (by decide)).between fun _ => (draws_tell (by decide)).between fun figure => ?_
    refine (draws_tell (by decide)).between fun axes => (draws_tell' (by decide)).between fun _ => ?_
    dsimp only
    rw [hsizes, ← List.append_nil (List.flatMap ..), ← Nat.zero_add (edges sizes), ← hlines]
    refine draws_lift hd (Draws.bind ?_ fun _ => ?_)
    · exact draws_forM_figures _ fun p : Int × Nat => draws_drawColumn axes {} v h p.1 p.2
    · exact draws_forM_lines _ fun p : (Int × Int) × Nat => draws_drawEdges axes {} v h p.1.1 p.1.2 p.2

/-! ## Both -/

theorem layersFrom_sizes (n : Network) (y : Int) (sizes : List Nat) :
    ((n.layersFrom y (sizes.map (↑))).map fun layer => layer.2.length) = sizes := by
  induction sizes generalizing y with
  | nil => rfl
  | cons size sizes ih =>
    rw [List.map_cons, Network.layersFrom, List.map_cons, ih, length_placesFrom]
    rfl

theorem sum_placesFrom (x : Int) (k : Nat) : (Network.placesFrom x k).sum = k * (x + k - 1) := by
  induction k generalizing x with
  | zero => simp [Network.placesFrom]
  | succ k ih =>
    rw [Network.placesFrom, List.sum_cons, ih, Network.neuronDistance]
    push_cast
    ring

/-- Layers lie one distance above the other, and the middle of each is above the middle of the widest. -/
theorem layersFrom_get (widest : Nat) {size : Nat} {sizes : List Nat} (all : List Nat) (y : Int) {k : Nat} (hk : sizes[k]? = some size) :
    ∃ xs : List Int, ((Network.ofSizes widest all).layersFrom y (sizes.map (↑)))[k]? = some (y + 6 * k, xs) ∧ xs.length = size ∧
      xs.sum = size * ((widest : Int) - 1) := by
  induction sizes generalizing k y with
  | nil => cases hk
  | cons first sizes ih =>
    cases k with
    | zero =>
      obtain rfl := Option.some.inj hk
      refine ⟨Network.placesFrom ((Network.ofSizes widest all).leftMargin first) first, ?_, length_placesFrom .., ?_⟩
      · simp [Network.layersFrom]
      · have hmargin : (Network.ofSizes widest all).leftMargin first = (widest : Int) - first :=
          Int.mul_ediv_cancel_left _ (by decide)
        rw [sum_placesFrom, hmargin]
        ring
    | succ k =>
      obtain ⟨xs, hxs, hcentred⟩ := ih (y + Network.layerDistance) hk
      refine ⟨xs, ?_, hcentred⟩
      rw [List.map_cons, Network.layersFrom, List.getElem?_cons_succ, hxs, Network.layerDistance]
      push_cast
      ring_nf

def sizesValue (sizes : List Nat) : Value := .list (sizes.map fun k : Nat => .int k)

theorem layerSizes_sizesValue (sizes : List Nat) : layerSizes (sizesValue sizes) = .ok (sizes.map (↑)) :=
  mapM_ok.2 (List.forall₂_map_left_iff.2 (List.forall₂_map_right_iff.2 (List.forall₂_same.2 fun _ _ => rfl)))

theorem draws_drawNetwork {widest : Nat} {sizes : List Nat} (hgreatest : greatest (sizes.map (↑)) = .ok (widest : Int)) (vertical : Bool)
    (h : Draws (if vertical then drawVertical (.ofSizes widest sizes) else drawHorizontal (.ofSizes widest sizes)) circles lines) :
    Draws (drawNetwork (sizesValue sizes) vertical) circles lines := by
  refine draws_lift (layerSizes_sizesValue sizes) (draws_lift hgreatest ((draws_tell' (by decide)).between fun _ => ?_))
  cases vertical with
  | true => exact h.silently fun _ => draws_tell' (by decide)
  | false => exact h.silently fun _ => draws_tell' (by decide)

end TraceArtifacts.Draw
