import Syndicate.Content
import Syndicate.Content.Store

/-! Items at work on: a growing row of items whose options lie in one store. A clone has cells of
its own; an item reread from another's written form has a row of options of its own, but in it the
same cells as the other. An item at work may hold in its tags and its options what a finished item
could not, as long as tags and options can be had from it. -/

namespace Syndicate

structure DeskItem extends Body where
  /-- The tags, to which more can be added if they are a list. -/
  tags : Value
  /-- The options, as a mapping or as pairs. -/
  options : Slot

structure Desk where
  store : Store := []
  items : List DeskItem := []

namespace DeskItem

/-- The item with its options in new cells. -/
def load (s : Store) (c : Content) : DeskItem × Store :=
  let (options, s) := s.add (.map c.options)
  ({ toBody := c.toBody, tags := .list c.tags, options := options }, s)

/-- The item as a plain value. -/
def unload (s : Store) (item : DeskItem) : Outcome Content := do
  let tags ← item.tags.items
  let options ← s.entriesOf item.options
  pure { toBody := item.toBody, tags := tags, options := options.map fun e => (e.1, s.read e.2) }

/-- An equal item in new cells. -/
def clone (s : Store) (item : DeskItem) : Outcome (DeskItem × Store) := do
  let tags ← item.tags.items
  let (options, s) := s.add (s.read item.options)
  pure ({ item with tags := .list tags, options := options }, s)

/-- The item read back from its written form. -/
def reread (s : Store) (item : DeskItem) : Outcome (DeskItem × Store) := do
  let tags ← item.tags.items
  let options ← s.entriesOf item.options
  let (options, s) := s.addCell (.map (Content.keepOptions options))
  pure ({ item with tags := .list tags, options := options }, s)

def addTag (item : DeskItem) (tag : Value) : Outcome DeskItem :=
  match item.tags with
  | .list tags => .ok { item with tags := .list (tags ++ [tag]) }
  | v => faulty (.noMember v.kindName "append")

/-- An item with a field set, options to new cells. A name that no field has changes nothing, and
the derived property cannot be set. -/
def set (s : Store) (item : DeskItem) (name : String) (v : Value) :
    Outcome (DeskItem × Store) :=
  match name with
  | "tags" => .ok ({ item with tags := v }, s)
  | "options" =>
    let (options, s) := s.add v
    .ok ({ item with options := options }, s)
  | "has_media" => faulty (.noMember "Content" name)
  | _ => .ok ({ item with toBody := item.toBody.set name v }, s)

end DeskItem

namespace Desk

def ofItem (c : Content) : Desk :=
  let (item, s) := DeskItem.load [] c
  ⟨s, [item]⟩

/-- The items of a row as plain values. -/
def viewEach (s : Store) : List DeskItem → Outcome (List Content)
  | [] => .ok []
  | item :: items => do pure ((← item.unload s) :: (← viewEach s items))

def view (d : Desk) : Outcome (List Content) := viewEach d.store d.items

/-- A change to the desk. An item is named by its place, which may be counted from the end. -/
inductive Edit where
  | clone (i : Value)
  | reread (i : Value)
  | tag (i tag : Value)
  | set (i : Value) (field : String) (v : Value)
  | option (i : Value) (path : List Value) (v : Value)

/-- The item at a place of the row, with the place. -/
def item (d : Desk) (i : Value) : Outcome (Nat × DeskItem) := do
  let n ← Store.indexIn d.items.length i
  match d.items[n]? with
  | some item => .ok (n, item)
  | none => faulty .outOfRange

def push (d : Desk) (made : DeskItem × Store) : Desk := ⟨made.2, d.items ++ [made.1]⟩

def apply (d : Desk) : Edit → Outcome Desk
  | .clone i => do
    let (_, item) ← d.item i
    pure (d.push (← item.clone d.store))
  | .reread i => do
    let (_, item) ← d.item i
    pure (d.push (← item.reread d.store))
  | .tag i t => do
    let (n, item) ← d.item i
    pure { d with items := d.items.set n (← item.addTag t) }
  | .set i field v => do
    let (n, item) ← d.item i
    let (item, s) ← item.set d.store field v
    pure ⟨s, d.items.set n item⟩
  | .option i path v => do
    let (_, item) ← d.item i
    let (slot, s) := d.store.add v
    pure { d with store := ← s.assignAt item.options path slot }

/-- The mark that shows where a change has gone. -/
def mark : Value := .text "mutated"

/-- Marks a cell: a mapping under a key, a list by one more member. -/
def markCell : Cell → Cell
  | .list slots => .list (slots ++ [.scalar mark])
  | .map entries => .map (Entries.put entries mark (.scalar (.bool true)))

def markSlot (s : Store) : Slot → Store
  | .scalar _ => s
  | .place a => s.modify a markCell

/-- Marks an item by a tag, and the lists and mappings among its option values. -/
def markItem (d : Desk) (i : Value) : Outcome Desk := do
  let (n, item) ← d.item i
  let options ← d.store.entriesOf item.options
  pure ⟨options.foldl (fun s e => markSlot s e.2) d.store,
    d.items.set n (← item.addTag mark)⟩

end Desk

end Syndicate
