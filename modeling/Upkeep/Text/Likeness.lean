import Upkeep.Text.Basic

/-!
How alike two texts are: which share of their characters can be matched at nearby
positions, less what is matched out of order.
-/

namespace Upkeep

/-- A share between nothing and all, as a fraction. -/
structure Likeness where
  part : Nat
  whole : Nat
  deriving DecidableEq, Repr

namespace Likeness

/-- Match the characters of a text one by one with places of another text.  Each
takes the first free place that holds it and is within reach. -/
def matched (reach : Nat) (text other : Text) : List (Char × Nat) :=
  text.zipIdx.foldl (fun taken (c, index) =>
    let place? := other.zipIdx.find? fun (d, place) =>
      d == c && index ≤ place + reach && place ≤ index + reach &&
        !(taken.map Prod.snd).contains place
    match place? with
    | some (_, place) => taken ++ [(c, place)]
    | none => taken) []

/-- How many pairs of matched characters stand in another order. -/
def swaps (other : Text) (taken : List (Char × Nat)) : Nat :=
  let here := taken.map Prod.fst
  let there := (other.zipIdx.filter fun entry => (taken.map Prod.snd).contains entry.2).map Prod.fst
  (here.zip there).countP (fun (c, d) => c != d) / 2

/-- How alike two texts are. -/
def between (text other : Text) : Likeness :=
  let taken := matched (max text.length other.length / 2 - 1) text other
  let count := taken.length
  if text.isEmpty && other.isEmpty then ⟨1, 1⟩
  else if count = 0 then ⟨0, 1⟩
  else
    ⟨count * count * (text.length + other.length) +
        (count - swaps other taken) * text.length * other.length,
      3 * count * text.length * other.length⟩

/-- Whether texts this much alike may be confused: by more than seven tenths. -/
def isClose (likeness : Likeness) : Bool :=
  7 * likeness.whole < 10 * likeness.part

/-- Whether one likeness is at most another one. -/
def isAtMost (likeness other : Likeness) : Bool :=
  likeness.part * other.whole ≤ other.part * likeness.whole

end Likeness

/-- The names that may be confused with a text, the most alike last. -/
def closeNames (text : Text) (names : List Text) : List Text :=
  let close := (names.map fun name => (Likeness.between text name, name)).filter fun entry =>
    entry.1.isClose
  (close.mergeSort fun first second => first.1.isAtMost second.1).map Prod.snd

end Upkeep
