import TraceArtifacts.Draw.Matrix
import TraceArtifacts.Text.Spelling

/-!
# Comparing groups

How fair a model is shows in the differences between groups: how often each is selected, and how good the predictions are for each.
-/

namespace TraceArtifacts.Draw

def coarseFrom : Float := 8796093022208.0

/-- A number with at most three places, in its shortest form; whole numbers have none. -/
def rounded (v : Value) : Outcome String :=
  match v with
  | .int i => .ok (toString i)
  | .bool b => .ok (if b then "1" else "0")
  | .float x =>
      if x.abs < coarseFrom then
        let ds := (Decimal.fixed 3 x).toList.reverse.dropWhile (· == '0')
        .ok (String.ofList (match ds with
          | '.' :: _ => ('0' :: ds).reverse
          | _ => ds.reverse))
      else .ok (Decimal.shortest x)
  | _ => .error .badOperand

def nearestEven (x : Float) : Float :=
  let below := x.abs.floor
  let rest := x.abs - below
  let up := rest > 0.5 || (rest == 0.5 && (below / 2.0).floor * 2.0 != below)
  let n := if up then below + 1.0 else below
  if x < 0.0 then -n else n

def inThousandths (x : Float) : String := Decimal.shortest (nearestEven (x * 1000.0) / 1000.0)

def onBar : Fields := [("ha", .text "center"), ("va", .text "bottom")]

def partAxes (parts : String) (place : String) : String := parts ++ "[" ++ place ++ "]"

def partAt (v key : Value) : Outcome Value :=
  match v, key with
  | .object _, .text k => v.entry k
  | .object _, _ => do
      let _ ← key.asKey
      throw .missingEntry
  | _, _ => v.item key

def memberAt (v : Value) (i : Nat) : Outcome Value := partAt v (.int i)

structure Rate where
  quotient : Float
  text : String
deriving Inhabited

/-- The rate of some selected among the others and themselves. Numbers of a column that holds only numbers have
a quotient in any case; others have none by zero. -/
def Rate.ofCounts (kind : CellKind) (selected others : Value) : Outcome Rate := do
  match kind with
  | .mixed =>
      let a ← asDouble selected
      let total := (← asDouble others) + a
      if total == 0.0 then throw .zeroDivision
      let q := a / total
      return ⟨q, ← rounded (.float q)⟩
  | kind =>
      let a ← asDouble selected
      let b ← asDouble others
      let q := a / if kind = .truth then max a b else b + a
      return ⟨q, inThousandths q⟩

def selectionRate (f : Frame) (name label : Value) (group : Nat) : Drawing Rate := do
  let chosen ← f.apply "filter"
    [.text ("\"" ++ name.display ++ "\" = '" ++ toString group ++ "'")]
  let counted ← chosen.apply "agg"
    [.list [.ofTexts ["count", "ID", "Number"]]] [("group_by", label)]
  let sorted ← counted.apply "sort" [label]
  let t ← sorted.collect
  let selected ← t.cell 1 1
  Rate.ofCounts (CellKind.ofCells (((t[1]?).map (·.2)).getD [])) selected (← t.cell 0 1)

def drawSelection (axes : Pen) (f : Frame) (name label groupLabels : Value) : Drawing Unit := do
  let rates ← [0, 1].mapM (selectionRate f name label)
  axes.tell "bar" [.list [.int 0, .int 1], .list (rates.map fun r => .float r.quotient)]
    [("label", .text "selection rate")]
  rates.zipIdx.forM fun (r, i) => do
    axes.tell "text" [.int i, .float r.quotient, .text r.text] onBar
  axes.tell "set_ylim" [.list [.float 0.0, .int 1]]
  axes.tell "set_xticks" [.list [.int 0, .int 1]]
  axes.tell "set_xlabel" [name]
  axes.tell "set_xticklabels" [groupLabels]
  axes.tell "legend"
  axes.tell "set_title" [.text ("Selection rate of groups of \"" ++ name.display ++ "\"")]

def drawSelections (f : Frame) (names label groupLabels : Value) : Drawing Unit := do
  let parts ← Drawing.tell picture "subplots" [.int 1, .int 2]
    [("figsize", .list [.int 12, .int 4])]
  [0, 1].forM fun i => do
    let name ← memberAt names i
    let labels ← memberAt groupLabels i
    drawSelection (.named (partAxes parts (toString i))) f name label labels
  Drawing.tell' picture "show"

def groupMeasures (truth predicted : Frame) (column group key label positive negative : Value) :
    Drawing Value := do
  let chosen ← truth.apply "filter"
    [.text ("\"" ++ column.display ++ "\"= '" ++ group.display ++ "'")]
  let names := Fields.ofPairs [(← key.asKey, .text "ID_TRUE"), (← label.asKey, .text "ORIGINAL")]
  let renamed ← chosen.apply "rename_columns" [.object names]
  let joined ← renamed.apply "join" [predicted.toValue, .text ("ID_TRUE=" ++ key.display)]
  let selected ← joined.apply "select" [.list [key, .text "ORIGINAL", .text "SCORE"]]
  let _ ← Drawing.stroke none "binary_classification_debriefing" [selected.toValue]
    [("label_true", .text "ORIGINAL"), ("label_pred", .text "SCORE"),
     ("positive_label", positive), ("negative_label", negative)]
  let s ← get
  match s.measures with
  | [] => throw .outOfRange
  | m :: rest => do
      set { s with measures := rest }
      return m

def comparedMeasures : List (String × String) :=
  [("ACCURACY", "accuracy"), ("PRECISION", "precision"), ("RECALL", "recall"),
   ("SELECTION RATE", "selection_rate"), ("FPR", "false_positive_rate")]

def barWidth : Float := 0.2

def drawMeasure (axes : String) (title : String) (first second column groupLabels : Value) :
    Drawing Unit := do
  let left := Value.list [.float (0.0 - barWidth)]
  let right := Value.list [.float (0.0 + barWidth)]
  Drawing.tell' axes "bar" [left, first, .float barWidth]
    [("color", .text "b"), ("alpha", .float 0.5)]
  Drawing.tell' axes "bar" [right, second, .float barWidth]
    [("color", .text "r"), ("alpha", .float 0.5)]
  Drawing.tell' axes "text" [left, first, .text (← rounded first)] onBar
  Drawing.tell' axes "text" [right, second, .text (← rounded second)] onBar
  Drawing.tell' axes "set_title" [.text title]
  Drawing.tell' axes "set_ylim" [.list [.int 0, .float 1.05]]
  Drawing.tell' axes "set_xlabel" [column]
  Drawing.tell' axes "set_xticks"
    [.list [.float (0.0 - barWidth), .float 0.0, .float (0.0 + barWidth)]]
  Drawing.tell' axes "set_xticklabels"
    [.list [← memberAt groupLabels 0, .text "", ← memberAt groupLabels 1]]

def drawMeasures (first second title column groupLabels : Value) : Drawing Unit := do
  let pairs ← (comparedMeasures.mapM fun (key, t) => do
    return (t, ← first.entry key, ← second.entry key) : Outcome _)
  let parts ← Drawing.tell picture "subplots" [.int 2, .int 3]
    [("figsize", .list [.int 10, .int 5])]
  pairs.zipIdx.forM fun ((t, a, b), i) => do
    drawMeasure (partAxes parts (toString (i / 3) ++ "," ++ toString (i % 3))) t a b column groupLabels
  Drawing.tell' (partAxes parts "1,2") "axis" [.text "off"]
  Drawing.tell' parts "suptitle" [title]
  Drawing.tell' picture "tight_layout"
  Drawing.tell' picture "show"

def compareGroups (truth predicted : Frame) (column groups key label positive negative title
    groupLabels : Value) : Drawing (Value × Value) := do
  let first ← groupMeasures truth predicted column (← memberAt groups 0) key
    label positive negative
  let second ← groupMeasures truth predicted column (← memberAt groups 1) key
    label positive negative
  drawMeasures first second title column groupLabels
  return (first, second)

def printedMeasures : List (String × String) :=
  [("ACCURACY : ", "ACCURACY"), ("RECALL[TPR] : ", "RECALL"), ("PRECISION : ", "PRECISION"),
   ("FPR : ", "FPR"), ("SELECTION RATE : ", "SELECTION RATE")]

def printMeasures (group measures : Value) : Drawing Unit := do
  Drawing.print ("Metrics for group '" ++ group.display ++ "' : ")
  printedMeasures.forM fun (label, key) => do
    Drawing.print (label ++ " " ++ (← measures.entry key).display)
  Drawing.print "\n"

def sum (v : Value) (x : Float) : Outcome Value := do return .float ((← asDouble v) + x)

def drawModels (axes : Pen) (measure first firstFair second secondFair column groupLabels : Value) :
    Drawing Unit := do
  let plain := [← partAt first measure, ← partAt second measure]
  let fair := [← partAt firstFair measure, ← partAt secondFair measure]
  let width := 0.3
  axes.tell "bar" [.list [.int 0, .int 1], .list plain, .float width]
    [("label", .text "\"regular\" HGBT model")]
  axes.tell "bar" [.list [.float (0.0 + width), .float (1.0 + width)], .list fair,
    .float width] [("label", .text "FairML HGBT model with demographic_parity")]
  plain.zipIdx.forM fun (v, i) => do
    let y ← sum v 0.05
    let text := Decimal.fixed 3 (← asDouble v)
    axes.tell "text" [.int i, y, .text text] onBar
  fair.zipIdx.forM fun (v, i) => do
    let y ← sum v 0.05
    let text := Decimal.fixed 3 (← asDouble v)
    axes.tell "text" [.float (Float.ofNat i + width), y, .text text] onBar
  axes.tell "set_ylim" [.list [.float 0.0, .float 1.2]]
  axes.tell "set_xticks" [.list [.float 0.15, .float 1.15]]
  axes.tell "set_xlabel" [column]
  axes.tell "set_xticklabels" [groupLabels]
  axes.tell "legend"
  axes.tell "set_title" [.text (measure.display ++ " splited by " ++ column.display)]

def compareModels (measures first firstFair second secondFair column groupLabels : Value) :
    Drawing Unit := do
  let parts ← Drawing.tell picture "subplots" [.int 1, .int 2]
    [("figsize", .list [.int 20, .int 5])]
  [0, 1].forM fun i => do
    let m ← memberAt measures i
    drawModels (.named (partAxes parts (toString i))) m first firstFair second secondFair column groupLabels
  Drawing.tell' picture "show"

def classPairs (truth predicted : Frame) (column label : Value) (group : Nat) : Drawing Frame := do
  let chosen ← truth.apply "filter"
    [.text ("\"" ++ column.display ++ "\"='" ++ toString group ++ "'")]
  let selected ← chosen.apply "select" [.text "ID", label]
  let renamed ← selected.apply "rename_columns" [.ofTexts ["ID", "ACTUAL_CLASS"]]
  let indexed ← renamed.apply "set_index" [.text "ID"]
  let scores ← predicted.apply "select" [.text "ID", .text "SCORE"]
  let scores ← scores.apply "rename_columns" [.ofTexts ["ID", "PREDICTED_CLASS"]]
  let scores ← scores.apply "set_index" [.text "ID"]
  indexed.apply "join" [scores.toValue]

def databaseConfusion (f : Frame) : Drawing Frame := do
  let _ ← Drawing.stroke none "confusion_matrix" []
    [("data", f.toValue), ("key", .text "ID"), ("label_true", .text "ACTUAL_CLASS"),
     ("label_pred", .text "PREDICTED_CLASS")]
  return f.renamed ("cm#" ++ toString (← get).strokes.length)

def drawDatabaseConfusion (figure : String) (part : Nat) (f : Frame) (options : Outcome Fields) :
    Drawing Unit := do
  let axes ← Drawing.tell figure "add_subplot" [.int part]
  let options ← options
  let _ ← Drawing.stroke none "MetricsVisualizer" [penValue axes]
    (("enable_plotly", .bool false) :: options)
  Drawing.tell' ("mv#" ++ toString (← get).strokes.length) "plot_confusion_matrix" [f.toValue]
    [("normalize", .bool false)]

def groupTitle (title : Value) (group : String) : Outcome Fields := do
  return [("title", .text ((← title.entry group).display ++ " applicants"))]

def compareConfusions (truth predicted : Frame) (column label title : Value) : Drawing Unit := do
  let pairs₁ ← classPairs truth predicted column label 1
  let pairs₀ ← classPairs truth predicted column label 0
  let c₁ ← databaseConfusion pairs₁
  let c₀ ← databaseConfusion pairs₀
  let indexed ← c₁.apply "set_index" [.ofTexts ["ACTUAL_CLASS", "PREDICTED_CLASS"]]
  let other ← c₀.apply "rename_columns" [.ofTexts ["AC", "PC", "COUNT2"]]
  let other ← other.apply "set_index" [.ofTexts ["AC", "PC"]]
  let joined ← indexed.apply "join" [other.toValue]
  let difference ← joined.apply "select"
    [.text "ACTUAL_CLASS", .text "PREDICTED_CLASS", .ofTexts ["COUNT - COUNT2", "COUNT"]]
  let figure ← Drawing.tell picture "figure" [] [("figsize", .list [.int 20, .int 5])]
  drawDatabaseConfusion figure 131 c₁ (groupTitle title "1")
  drawDatabaseConfusion figure 132 c₀ (groupTitle title "0")
  drawDatabaseConfusion figure 133 difference
    (.ok [("cmap", .text "Purples"), ("title", .text "Difference")])

end TraceArtifacts.Draw
