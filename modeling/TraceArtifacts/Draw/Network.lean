import TraceArtifacts.Draw.Sketch

/-!
# Pictures of networks

A network has layers of neurons; each neuron is a circle, and lines lead from it to all neurons of the layer before.
-/

namespace TraceArtifacts.Draw

/-- A network: the number of neurons of each layer, and the width that layers are centred on. -/
structure Network where
  widest : Int
  sizes : List Int
deriving Repr, DecidableEq, Inhabited

namespace Network

def layerDistance : Int := 6

def neuronDistance : Int := 2

def radius : Float := 0.5

/-- Neurons stand side by side, the first at `x`. -/
def placesFrom (x : Int) : Nat → List Int
  | 0 => []
  | k + 1 => x :: placesFrom (x + neuronDistance) k

def leftMargin (n : Network) (size : Int) : Int := neuronDistance * (n.widest - size) / 2

/-- Each layer lies above the one before it. -/
def layersFrom (n : Network) (y : Int) : List Int → List (Int × List Int)
  | [] => []
  | size :: rest => (y, placesFrom (n.leftMargin size) size.toNat) :: n.layersFrom (y + layerDistance) rest

def layers (n : Network) : List (Int × List Int) := n.layersFrom 0 n.sizes

end Network

def addToAxes (action : String) (item : String) : Drawing Unit := do
  let axes ← Drawing.tell picture "gca"
  Drawing.tell' axes action [penValue item]

def drawNeuron (x y : Int) : Drawing Unit := do
  let circle ← Drawing.tell picture "Circle" [.list [.float (Float.ofInt x), .int y]]
    [("radius", .float Network.radius), ("fill", .bool false)]
  addToAxes "add_patch" circle

def quotient (a : Float) (b : Int) : Outcome Float :=
  if b = 0 then .error .zeroDivision else .ok (a / Float.ofInt b)

def lineBetween (x₁ y₁ x₂ y₂ : Int) : Outcome (Value × Value) := do
  let angle := Float.atan (← quotient (Float.ofInt x₂ - Float.ofInt x₁) (y₂ - y₁))
  let dx := Network.radius * Float.sin angle
  let dy := Network.radius * Float.cos angle
  return (.list [.float (Float.ofInt x₁ - dx), .float (Float.ofInt x₂ + dx)],
    .list [.float (Float.ofInt y₁ - dy), .float (Float.ofInt y₂ + dy)])

def drawLine (x₁ y₁ x₂ y₂ : Int) : Drawing Unit := do
  let (xs, ys) ← lineBetween x₁ y₁ x₂ y₂
  let line ← Drawing.tell picture "Line2D" [xs, ys]
  addToAxes "add_line" line

def layerLabel (count k : Nat) : String :=
  if k + 1 = count then "Output Layer"
  else if k = 0 then "Input Layer"
  else "Hidden Layer " ++ toString k

def drawLayer (n : Network) (label : String) (before : Option (Int × List Int)) (y : Int)
    (xs : List Int) : Drawing Unit := do
  xs.forM fun x => do
    drawNeuron x y
    match before with
    | some (y', xs') => xs'.forM fun x' => drawLine x y x' y'
    | none => pure ()
  Drawing.tell' picture "text"
    [.int (n.widest * Network.neuronDistance), .int y, .text label] [("fontsize", .int 12)]

def drawLayers (n : Network) (count : Nat) : Nat → Option (Int × List Int) → List (Int × List Int) →
    Drawing Unit
  | _, _, [] => pure ()
  | k, before, (y, xs) :: rest => do
      drawLayer n (layerLabel count k) before y xs
      drawLayers n count (k + 1) (some (y, xs)) rest

def drawVertical (n : Network) : Drawing Unit := do
  drawLayers n n.sizes.length 0 none n.layers
  Drawing.tell' picture "axis" [.text "scaled"]
  Drawing.tell' picture "axis" [.text "off"]
  Drawing.tell' picture "title" [.text "Neural Network architecture"] [("fontsize", .int 15)]

structure Bounds where
  left : Float := 0.1
  right : Float := 0.9
  bottom : Float := 0.1
  top : Float := 0.9

def greatest : List Int → Outcome Int
  | [] => .error (.refused "max() arg is an empty sequence")
  | x :: xs => .ok (xs.foldl max x)

def distances (b : Bounds) (sizes : List Int) : Outcome (Float × Float) := do
  let v ← quotient (b.top - b.bottom) (← greatest sizes)
  let h ← quotient (b.right - b.left) ((sizes.length : Int) - 1)
  return (v, h)

def layerTop (b : Bounds) (v : Float) (size : Int) : Float :=
  v * Float.ofInt (size - 1) / 2.0 + (b.top + b.bottom) / 2.0

def drawColumn (axes : String) (b : Bounds) (v h : Float) (size : Int) (k : Nat) : Drawing Unit :=
  (List.range size.toNat).forM fun m => do
    let x := Float.ofNat k * h + b.left
    let y := layerTop b v size - Float.ofNat m * v
    let circle ← Drawing.tell picture "Circle" [.list [.float x, .float y], .float (v / 4.0)]
      [("color", .text "w"), ("ec", .text "k"), ("zorder", .int 4)]
    Drawing.tell' axes "add_artist" [penValue circle]

def drawEdges (axes : String) (b : Bounds) (v h : Float) (size next : Int) (k : Nat) :
    Drawing Unit :=
  (List.range size.toNat).forM fun m => (List.range next.toNat).forM fun o => do
    let line ← Drawing.tell picture "Line2D"
      [.list [.float (Float.ofNat k * h + b.left), .float (Float.ofNat (k + 1) * h + b.left)],
       .list [.float (layerTop b v size - Float.ofNat m * v),
         .float (layerTop b v next - Float.ofNat o * v)]] [("c", .text "k")]
    Drawing.tell' axes "add_artist" [penValue line]

def drawHorizontal (n : Network) : Drawing Unit := do
  Drawing.tell' picture "figure"
  let figure ← Drawing.tell picture "figure"
  let axes ← Drawing.tell figure "gca"
  Drawing.tell' axes "axis" [.text "off"]
  let sizes := n.sizes.map fun s => (s.toNat : Int)
  let b : Bounds := {}
  let (v, h) ← distances b sizes
  sizes.zipIdx.forM fun (size, k) => drawColumn axes b v h size k
  (sizes.zip sizes.tail).zipIdx.forM fun ((size, next), k) => drawEdges axes b v h size next k

def Network.draw (n : Network) (vertical : Bool) : Drawing Unit := do
  Drawing.tell' picture "figure"
  if vertical then drawVertical n else drawHorizontal n
  Drawing.tell' picture "show"

def layerSizes (v : Value) : Outcome (List Int) := do
  (← v.members).mapM fun m =>
    match m.position? with
    | some i => .ok i
    | none => .error .badOperand

def drawNetwork (sizes : Value) (vertical : Bool) : Drawing Unit := do
  let sizes ← layerSizes sizes
  Network.draw ⟨← greatest sizes, sizes⟩ vertical

/-- The neurons of a network layer by layer: the height of the layer, then the places of its neurons. The width that
layers are centred on may be any number. -/
def neuronPlaces (widest sizes : Value) : Outcome (List (Int × List (Float × Int))) := do
  match ← layerSizes sizes with
  | [] => return []
  | sizes =>
      let places (shift : Float) (n : Network) := n.layers.map fun (y, xs) =>
        (y, xs.map fun x => (shift + Float.ofInt x, y))
      match widest.number? with
      | some (.inl w) => return places 0.0 ⟨w, sizes⟩
      | some (.inr w) => return places w ⟨0, sizes⟩
      | none => throw .badOperand

end TraceArtifacts.Draw
