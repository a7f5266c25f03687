import TraceArtifacts.Decimal.Shortest
import TraceArtifacts.Fault
import TraceArtifacts.Text.Scan

/-!
# Values

Traces, settings and artifacts are made of records whose entries may be anything a data file can hold, or be absent.
-/

namespace TraceArtifacts

inductive Value where
  | null
  | bool (b : Bool)
  | int (i : Int)
  | float (x : Float)
  | text (s : String)
  | list (xs : List Value)
  | object (fields : List (String × Value))
deriving Inhabited

abbrev Fields := List (String × Value)

namespace Fields

def get? (fs : Fields) (key : String) : Option Value := fs.lookup key

def set (key : String) (v : Value) : Fields → Fields
  | [] => [(key, v)]
  | (k, w) :: rest => if k = key then (k, v) :: rest else (k, w) :: set key v rest

def modify (key : String) (f : Value → Value) : Fields → Fields
  | [] => []
  | (k, v) :: rest => if k = key then (k, f v) :: rest else (k, v) :: modify key f rest

def without (keys : List String) (fs : Fields) : Fields :=
  fs.filter fun f => !keys.contains f.1

def optional (key : String) : Option Value → Fields
  | none => []
  | some v => [(key, v)]

def ofPairs (pairs : List (String × Value)) : Fields :=
  pairs.foldl (fun fs p => fs.set p.1 p.2) []

end Fields

namespace Value

def isTruthy : Value → Bool
  | null => false
  | bool b => b
  | int i => i != 0
  | float x => x != 0.0
  | text s => s != ""
  | list xs => !xs.isEmpty
  | object fs => !fs.isEmpty

def number? : Value → Option (Int ⊕ Float)
  | bool b => some (.inl (if b then 1 else 0))
  | int i => some (.inl i)
  | float x => some (.inr x)
  | _ => none

mutual

/-- Equality of data: numbers by value, records regardless of the order of their entries. -/
def same : Value → Value → Bool
  | null, null => true
  | text a, text b => a == b
  | list xs, list ys => sameList xs ys
  | object fs, object gs => fs.length == gs.length && sameFields fs gs
  | a, b =>
      match a.number?, b.number? with
      | some (.inl i), some (.inl j) => i == j
      | some (.inl i), some (.inr y) => Float.ofInt i == y
      | some (.inr x), some (.inl j) => x == Float.ofInt j
      | some (.inr x), some (.inr y) => x == y
      | _, _ => false

def sameList : List Value → List Value → Bool
  | [], [] => true
  | x :: xs, y :: ys => same x y && sameList xs ys
  | _, _ => false

def sameFields : List (String × Value) → List (String × Value) → Bool
  | [], _ => true
  | (k, v) :: rest, gs =>
      (match gs.lookup k with
      | some w => same v w
      | none => false) && sameFields rest gs

end

mutual

def mapParts (f : Value → Value) : Value → Value
  | list xs => f (list (mapMembers f xs))
  | object fs => f (object (mapEntries f fs))
  | v => f v

def mapMembers (f : Value → Value) : List Value → List Value
  | [] => []
  | x :: xs => mapParts f x :: mapMembers f xs

def mapEntries (f : Value → Value) : List (String × Value) → List (String × Value)
  | [] => []
  | (k, v) :: rest => (k, mapParts f v) :: mapEntries f rest

end

def keyText? : Value → Option String
  | null => some "None"
  | bool b => some (if b then "True" else "False")
  | int i => some (toString i)
  | float x => some (Decimal.shortest x)
  | text s => some s
  | list _ => none
  | object _ => none

def asKey (v : Value) : Outcome String :=
  match v.keyText? with
  | some k => .ok k
  | none => .error .badOperand

/-- Whether `needle` is in `hay`: a part of a text, a member of a sequence, a key of a record. -/
def isIn (needle hay : Value) : Outcome Bool :=
  match hay with
  | text h =>
      match needle with
      | text n => .ok (Text.occurs n.toList h.toList)
      | _ => .error .badOperand
  | list xs => .ok (xs.any fun x => same needle x)
  | object fs => do
      let k ← needle.asKey
      return fs.any fun f => f.1 == k
  | _ => .error .badOperand

def asCount : Value → Outcome Int
  | int i => .ok i
  | bool b => .ok (if b then 1 else 0)
  | float x => .ok x.ceil.toInt64.toInt
  | _ => .error .badOperand

def count (v needle : Value) : Outcome Nat :=
  match v with
  | text s => do
      match needle with
      | text t => return Text.count t.toList s.toList
      | _ => throw .badOperand
  | list xs => .ok (xs.countP fun x => same needle x)
  | _ => .error .badReceiver

def findNth (v needle n : Value) : Outcome Int := do
  match v with
  | text s => do
      match needle with
      | text t =>
          let found := Text.findNth t.toList s.toList
          if (found 1).isNone then return -1
          return ((found (← n.asCount)).map Int.ofNat).getD (-1)
      | _ => throw .badOperand
  | _ => throw .badReceiver

def has (v : Value) (key : String) : Outcome Bool := (text key).isIn v

def entry (v : Value) (key : String) : Outcome Value :=
  match v with
  | object fs =>
      match fs.lookup key with
      | some w => .ok w
      | none => .error (.missingKey key)
  | _ => .error .badOperand

def position? : Value → Option Int
  | int i => some i
  | bool b => some (if b then 1 else 0)
  | _ => none

def placeAmong (length : Nat) (v : Value) : Outcome Nat :=
  match v.position? with
  | none => .error .badOperand
  | some i =>
      let i := if i < 0 then i + length else i
      if 0 ≤ i ∧ i < length then .ok i.toNat else .error .outOfRange

/-- The part of a value that a key or position leads to: an entry of a record, a member of a sequence, a
character of a text. -/
def item (v key : Value) : Outcome Value :=
  match v with
  | object fs => do
      let k ← key.asKey
      match fs.lookup k, key with
      | some w, _ => return w
      | none, text k => throw (.missingKey k)
      | none, _ => throw .missingEntry
  | list xs => do return (xs[← placeAmong xs.length key]?).getD null
  | text s => do
      return text (((s.toList[← placeAmong s.toList.length key]?).map Char.toString).getD "")
  | _ => .error .badOperand

def setItem (v key x : Value) : Outcome Value :=
  match v with
  | object fs => do return object (Fields.set (← key.asKey) x fs)
  | list xs => do return list (xs.set (← placeAmong xs.length key) x)
  | _ => .error .badOperand

def setEntry (v : Value) (key : String) (x : Value) : Outcome Value :=
  match v with
  | object fs => .ok (object (Fields.set key x fs))
  | _ => .error .badOperand

def withEntries (v : Value) (entries : Fields) : Value :=
  match v with
  | object fs => object (entries.foldl (fun fs f => Fields.set f.1 f.2 fs) fs)
  | v => v

def append (v : Value) (xs : List Value) : Outcome Value :=
  match v with
  | list ys => .ok (list (ys ++ xs))
  | _ => .error .badReceiver

def members : Value → Outcome (List Value)
  | list xs => .ok xs
  | text s => .ok (s.toList.map fun c => .text c.toString)
  | object fs => .ok (fs.map fun f => .text f.1)
  | _ => .error .badOperand

def positioned (v : Value) : Outcome (List Value) :=
  match v with
  | object (_ :: _) => .error .missingEntry
  | v => v.members

/-- Two values together: numbers are added, texts and sequences joined. -/
def plus (v w : Value) : Outcome Value :=
  match v, w with
  | text a, text b => .ok (text (a ++ b))
  | list xs, list ys => .ok (list (xs ++ ys))
  | _, _ =>
      match v.number?, w.number? with
      | some (.inl i), some (.inl j) => .ok (int (i + j))
      | some (.inl i), some (.inr y) => .ok (float (Float.ofInt i + y))
      | some (.inr x), some (.inl j) => .ok (float (x + Float.ofInt j))
      | some (.inr x), some (.inr y) => .ok (float (x + y))
      | _, _ => .error .badOperand

def asText : Value → Outcome String
  | text s => .ok s
  | _ => .error .badOperand

def asTextReceiver : Value → Outcome String
  | text s => .ok s
  | _ => .error .badReceiver

def ofText? : Option String → Value
  | some s => text s
  | none => null

def ofTexts (xs : List String) : Value := list (xs.map text)

def isRecord : Value → Bool
  | object _ => true
  | _ => false

def entryOr (v : Value) (key : String) (default : Value) : Outcome Value := do
  if ← v.has key then v.entry key else return default

def textEntry (v : Value) (key : String) : Outcome String := do (← v.entry key).asText

def get (v : Value) (key : String) (default : Value := null) : Value :=
  match v with
  | object fs => (fs.lookup key).getD default
  | _ => default

def toList : Value → List Value
  | list xs => xs
  | _ => []

def toFields : Value → Fields
  | object fs => fs
  | _ => []

def text? : Value → Option String
  | text s => some s
  | _ => none

def textOrEmpty (v : Value) : String := v.text?.getD ""

def listAt (v : Value) (key : String) : List Value := (v.get key).toList

def fieldsAt (v : Value) (key : String) : Fields := (v.get key).toFields

def textAt (v : Value) (key : String) : String := (v.get key).textOrEmpty

end Value

def Fields.addUnder (key : String) (vs : List Value) (fs : Fields) : Fields :=
  fs.set key (.list (((fs.get? key).map Value.toList).getD [] ++ vs))

def need (key : String) : Option Value → Outcome Value
  | some v => .ok v
  | none => .error (.missingKey key)

end TraceArtifacts
