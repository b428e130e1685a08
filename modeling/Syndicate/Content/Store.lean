import Syndicate.Value.Coerce

/-! A store of lists and mappings, for option values that several items may hold in common. A
scalar stands for itself; a list or a mapping is known by its address, and whoever holds the
address sees what is assigned there. -/

namespace Syndicate

/-- A value as something in a store holds it. -/
inductive Slot where
  | scalar (v : Value)
  | place (address : Nat)
  deriving Inhabited

inductive Cell where
  | list (slots : List Slot)
  | map (entries : List (Value × Slot))

/-- Cells by address. They are never removed, so an address stays good. -/
abbrev Store := List Cell

namespace Store

def addCell (s : Store) (cell : Cell) : Slot × Store := (.place s.length, s ++ [cell])

mutual

/-- Puts a value into new cells. -/
def add (s : Store) : Value → Slot × Store
  | .list xs =>
    let (slots, s) := addItems s xs
    s.addCell (.list slots)
  | .map es =>
    let (entries, s) := addEntries s es
    s.addCell (.map entries)
  | v => (.scalar v, s)

def addItems (s : Store) : List Value → List Slot × Store
  | [] => ([], s)
  | x :: xs =>
    let (slot, s) := add s x
    let (slots, s) := addItems s xs
    (slot :: slots, s)

def addEntries (s : Store) : Entries → List (Value × Slot) × Store
  | [] => ([], s)
  | (k, v) :: es =>
    let (slot, s) := add s v
    let (entries, s) := addEntries s es
    ((k, slot) :: entries, s)

end

/-- The value in a slot, as far down as a number of cells. -/
def readTo (s : Store) : (depth : Nat) → Slot → Value
  | _, .scalar v => v
  | 0, .place _ => .null
  | n + 1, .place a => match s[a]? with
    | some (.list slots) => .list (slots.map (readTo s n))
    | some (.map entries) => .map (entries.map fun e => (e.1, readTo s n e.2))
    | none => .null

/-- The value in a slot. A path down from it meets no cell twice, so it is no longer than the
store. -/
def read (s : Store) (slot : Slot) : Value := readTo s s.length slot

/-- A pair given in a slot, as `Value.pair` takes it. -/
def pairIn (s : Store) : Slot → Outcome (Value × Slot)
  | .scalar v => do
    let (k, w) ← v.pair
    pure (k, .scalar w)
  | .place a => match s[a]? with
    | some (.list [.scalar k, w]) => .ok (k, w)
    | some (.list [.place _, _]) => faulty .wrongType
    | some (.map [(k, _), (l, _)]) => .ok (k, .scalar l)
    | _ => faulty (.wrongValue "")

/-- Binds pairs one after the other. -/
def putPairs (s : Store) (es : List (Value × Slot)) : List Slot → Outcome (List (Value × Slot))
  | [] => .ok es
  | p :: ps => do
    let (k, w) ← s.pairIn p
    putPairs s (Entries.put es k w) ps

/-- The entries of a mapping in a slot, or of a row of pairs there. -/
def entriesOf (s : Store) : Slot → Outcome (List (Value × Slot))
  | .scalar v => do pure ((← v.toEntries).map fun e => (e.1, .scalar e.2))
  | .place a => match s[a]? with
    | some (.map entries) => .ok entries
    | some (.list slots) => s.putPairs [] slots
    | none => faulty .wrongType

/-- The position in a row that a number means; a negative one counts from the end. -/
def position? (length : Nat) (i : Int) : Option Nat :=
  if 0 ≤ i && i < length then some i.toNat
  else if i < 0 && -length ≤ i then some (i + length).toNat
  else none

/-- The position that a key means in a row of a length. -/
def indexIn (length : Nat) (key : Value) : Outcome Nat :=
  match key.asInt? with
  | none => faulty .wrongType
  | some i => match position? length i with
    | some n => .ok n
    | none => faulty .outOfRange

/-- The character of a text at a key, as a text. -/
def characterAt (s : String) (key : Value) : Outcome Slot := do
  pure (.scalar (.text (String.ofList ((s.toList.drop (← indexIn s.length key)).take 1))))

/-- What is bound to a key, which must be a scalar. -/
def boundTo (entries : List (Value × Slot)) (key : Value) : Outcome Slot :=
  if !key.isScalar then faulty .wrongType
  else match entries.find? fun e => e.1.alike key with
    | some e => .ok e.2
    | none => faulty (.missingKey [key])

/-- Goes down from a slot by one key. -/
def descend (s : Store) (slot : Slot) (key : Value) : Outcome Slot :=
  match slot with
  | .scalar (.text t) => characterAt t key
  | .scalar _ => faulty .wrongType
  | .place a => match s[a]? with
    | some (.list slots) => do pure ((slots[← indexIn slots.length key]?).getD slot)
    | some (.map entries) => boundTo entries key
    | none => faulty .wrongType

/-- The cell with a value assigned under a key. -/
def assignIn (cell : Cell) (key : Value) (v : Slot) : Outcome Cell :=
  match cell with
  | .list slots => do pure (.list (slots.set (← indexIn slots.length key) v))
  | .map entries =>
    if key.isScalar then .ok (.map (Entries.put entries key v)) else faulty .wrongType

def assign (s : Store) (slot : Slot) (key : Value) (v : Slot) : Outcome Store :=
  match slot with
  | .scalar _ => faulty .wrongType
  | .place a => match s[a]? with
    | some cell => do pure (s.set a (← assignIn cell key v))
    | none => faulty .wrongType

/-- Binds a key in the mapping that is in a slot. -/
def bind (s : Store) (slot : Slot) (key : Value) (v : Slot) : Store :=
  match slot with
  | .scalar _ => s
  | .place a => s.modify a fun
    | .map entries => .map (Entries.put entries key v)
    | cell => cell

/-- Assigns at the end of a path of keys that starts from a slot; an empty path has no end. -/
def assignAt (s : Store) (slot : Slot) : (path : List Value) → (v : Slot) → Outcome Store
  | [], _ => faulty .outOfRange
  | [key], v => assign s slot key v
  | key :: path, v => do assignAt s (← descend s slot key) path v

end Store

end Syndicate
