import Upkeep.Config.Toml.Document
import Upkeep.Config.Toml.Outline

/-!
Reading a TOML text.  The second edition decides what the text says: its outline comes
first, then its statements one by one, and last the scalars that do not fit.  A text that
the second edition accepts is then held against the first one.
-/

namespace Upkeep

namespace Toml

/-- What is wrong with a statement. -/
inductive Flaw where
  | spot (offset : Nat)
  | longKey
  deriving DecidableEq, Repr

/-- A reading as part of a statement. -/
def ofReading {Item : Type} (reading : Reading Item) : Except Flaw Item :=
  reading.mapError .spot

def keyParts (key : List Token) : Except Flaw (List Part) := do
  let parts ← key.mapM fun token =>
    (ofReading (token.name .second)).map fun name => ⟨name, token.start⟩
  if Edition.second.keyLength < parts.length then .error .longKey else .ok parts

mutual

/-- Read what is written for a value. -/
def Shape.item : Shape → Except Flaw Item
  | .scalar token => (ofReading (token.scalar .second)).map (.scalar token.start)
  | .list shapes => (itemsOf shapes).map (.list false)
  | .table pairs => (entriesOf [] pairs).map (.table .written)

def itemsOf : List Shape → Except Flaw (List Item)
  | [] => .ok []
  | shape :: rest => do return (← shape.item) :: (← itemsOf rest)

/-- Read the pairs of a table that holds some already. -/
def entriesOf (entries : Entries) : List (List Token × Shape) → Except Flaw Entries
  | [] => .ok entries
  | (key, shape) :: rest => do
      let key ← keyParts key
      let entries ← ofReading (putAt key (← shape.item) entries)
      entriesOf entries rest

end

def Statement.run (document : Document) : Statement → Except Flaw Document
  | .pair key shape => do
      let key ← keyParts key
      ofReading (document.put key (← shape.item))
  | .header isListed key => do
      let placed ← ofReading document.close
      ofReading (Document.openHeader placed ⟨isListed, ← keyParts key⟩)

/-- What a text says in the second edition. -/
def contents (text : Text) : Except Flaw (List (Text × Value)) := do
  let statements ← ofReading (outline .second text)
  let document ← statements.foldlM Statement.run .empty
  ofReading (do settingsOf (← document.close))

/-- The line and the column of a place, both counted from one.  The column in front of a
character that is not ASCII counts bytes; the place behind the whole text is one column
behind its last character. -/
def position (text : Text) (offset : Nat) : Nat × Nat :=
  let before := text.take (min offset (text.length - 1))
  let line := (before.reverse.takeWhile (· != '\n')).reverse
  let column :=
    match text.drop offset with
    | c :: _ => if c.utf8Size = 1 then line.length else (String.ofList line).utf8ByteSize
    | [] => if text.isEmpty then 0 else line.length + 1
  (before.count '\n' + 1, column + 1)

/-- Why a text cannot be read: it is malformed at a line and column, a key has too many
parts, or the first edition does not have what stands at a line and column. -/
inductive TextFault where
  | malformed (line column : Nat)
  | longKey
  | newer (line column : Nat)
  deriving DecidableEq, Repr

/-- Read a text that both editions accept. -/
def document (text : Text) : Except TextFault (List (Text × Value)) :=
  match contents text, outline .first text with
  | .error .longKey, _ => .error .longKey
  | .error (.spot offset), _ =>
      let (line, column) := position text offset
      .error (.malformed line column)
  | .ok _, .error offset =>
      let (line, column) := position text offset
      .error (.newer line column)
  | .ok settings, .ok _ => .ok settings

end Toml

end Upkeep
