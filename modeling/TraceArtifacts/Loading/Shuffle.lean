/-!
# Shuffling

A Mersenne twister with 624 words of 32 bits gives the numbers, the Fisher-Yates procedure the order.
-/

namespace TraceArtifacts.Loading

structure Generator where
  words : Array UInt32
  next : Nat
deriving Inhabited

namespace Generator

def size : Nat := 624

def word (ws : Array UInt32) (i : Nat) : UInt32 := ws.getD i 0

def mixed (w : UInt32) : UInt32 := w ^^^ (w >>> 30)

def spread (seed : UInt32) : Array UInt32 :=
  (List.range (size - 1)).foldl
    (fun ws i => ws.push (1812433253 * mixed (word ws i) + (i + 1).toUInt32)) #[seed]

def stir (count : Nat) (f : Nat → UInt32 → UInt32 → UInt32) (ws : Array UInt32) (start : Nat) :
    Array UInt32 × Nat :=
  (List.range count).foldl (fun (ws, i) _ =>
    let ws := ws.setIfInBounds i (f i (word ws (i - 1)) (word ws i))
    if i + 1 < size then (ws, i + 1) else (ws.setIfInBounds 0 (word ws (size - 1)), 1)) (ws, start)

def ofSeed (seed : UInt32) : Generator :=
  let (ws, i) := stir size (fun _ before w => (w ^^^ (mixed before * 1664525)) + seed)
    (spread 19650218) 1
  let (ws, _) := stir (size - 1)
    (fun i before w => (w ^^^ (mixed before * 1566083941)) - i.toUInt32) ws i
  { words := ws.setIfInBounds 0 0x80000000, next := size }

def twisted (ws : Array UInt32) : Array UInt32 :=
  (List.range size).foldl (fun ws i =>
    let y := (word ws i &&& 0x80000000) ||| (word ws ((i + 1) % size) &&& 0x7fffffff)
    let odd : UInt32 := if y &&& 1 = 1 then 0x9908b0df else 0
    ws.setIfInBounds i (word ws ((i + 397) % size) ^^^ (y >>> 1) ^^^ odd)) ws

def tempered (w : UInt32) : UInt32 :=
  let w := w ^^^ (w >>> 11)
  let w := w ^^^ ((w <<< 7) &&& 0x9d2c5680)
  let w := w ^^^ ((w <<< 15) &&& 0xefc60000)
  w ^^^ (w >>> 18)

def draw (g : Generator) : UInt32 × Generator :=
  let g := if g.next < size then g else { words := twisted g.words, next := 0 }
  (tempered (word g.words g.next), { g with next := g.next + 1 })

def tries : Nat := 256

def belowBy (bound : Nat) : Nat → Generator → Nat × Generator
  | 0, g => (0, g)
  | n + 1, g =>
      let (w, g) := g.draw
      let r := w.toNat >>> (32 - (Nat.log2 bound + 1))
      if r < bound then (r, g) else belowBy bound n g

def below (bound : Nat) (g : Generator) : Nat × Generator := belowBy bound tries g

end Generator

def shuffleDown : Nat → Generator → Array α → Array α
  | 0, _, xs => xs
  | i + 1, g, xs =>
      let (j, g) := g.below (i + 2)
      shuffleDown i g (xs.swapIfInBounds (i + 1) j)

def shuffled (seed : UInt32) (xs : List α) : List α :=
  (shuffleDown (xs.length - 1) (.ofSeed seed) xs.toArray).toList

end TraceArtifacts.Loading
