import Syndicate.Value.Coerce

/-! A content item: its text and media, the tags, type and language that rules look at, and
options for publishing. -/

namespace Syndicate

/-- The plain fields of an item, null when they are not there. -/
structure Body where
  text : Value := .null
  photo : Value := .null
  video : Value := .null
  document : Value := .null
  audio : Value := .null
  type : Value := .null
  lang : Value := .null

namespace Body

/-- The media fields by name, in the order in which they are looked at. -/
def media (b : Body) : List (String × Value) :=
  [("photo", b.photo), ("video", b.video), ("document", b.document), ("audio", b.audio)]

def hasMedia (b : Body) : Bool := b.media.any fun m => m.2.truthy

/-- The fields that are written only when they are there. -/
def fields (b : Body) : List (String × Value) :=
  ("text", b.text) :: b.media ++ [("type", b.type), ("lang", b.lang)]

/-- The body with a field changed; the same if there is no such field. -/
def set (b : Body) (name : String) (v : Value) : Body :=
  match name with
  | "text" => { b with text := v }
  | "photo" => { b with photo := v }
  | "video" => { b with video := v }
  | "document" => { b with document := v }
  | "audio" => { b with audio := v }
  | "type" => { b with type := v }
  | "lang" => { b with lang := v }
  | _ => b

end Body

structure Content extends Body where
  tags : List Value := []
  options : Entries := []

namespace Content

/-- The second spellings of options, with the first. -/
def aliases : List (String × String) :=
  [("parseMode", "parse_mode"), ("disableNotification", "disable_notification"),
   ("disablePreview", "disable_preview"), ("threadId", "thread_id")]

/-- The spelling under which an option is kept. -/
def optionKey : Value → Value
  | .text s => .text ((aliases.lookup s).getD s)
  | k => k

/-- Options under their first spellings; of two that fall together the last one's value stays. -/
def keepOptions {α : Type} (es : List (Value × α)) : List (Value × α) :=
  es.foldl (fun kept e => Entries.put kept (optionKey e.1) e.2) []

/-- The tags of an item: a text is a single tag, and what counts as false is none. -/
def tagsOf (v : Value) : Outcome (List Value) :=
  if !v.truthy then .ok []
  else match v with
    | .text _ => .ok [v]
    | _ => v.items

def optionsOf (v : Value) : Outcome Entries :=
  if v.truthy then v.entries "items" else .ok []

/-- An item from a mapping, whose options are looked at before its tags. -/
def ofEntries (es : Entries) : Outcome Content := do
  let options ← optionsOf (Entries.get es "options")
  let tags ← tagsOf (Entries.get es "tags")
  pure {
    text := Entries.get es "text"
    photo := Entries.get es "photo"
    video := Entries.get es "video"
    document := Entries.get es "document"
    audio := Entries.get es "audio"
    tags := tags
    type := Entries.get es "type"
    lang := Entries.get es "lang"
    options := keepOptions options }

/-- An item from a mapping or a row of pairs; what counts as false is an empty item. -/
def ofValue (v : Value) : Outcome Content := do
  ofEntries (← if v.truthy then v.toEntries else .ok [])

/-- The mapping that an item is written as. -/
def toEntries (c : Content) : Entries :=
  (.text "tags", .list c.tags) :: (.text "options", .map c.options) ::
    ((c.fields.filter fun f => !f.2.isNull).map fun f => (.text f.1, f.2))

/-- The item read back from its written form. -/
def reread (c : Content) : Content := { c with options := keepOptions c.options }

def option? (c : Content) (key : String) : Option Value := Entries.get? c.options key

/-- The value of an option, null when it is not there. -/
def option (c : Content) (key : String) : Value := Entries.get c.options key

def setOption (c : Content) (key : String) (v : Value) : Content :=
  { c with options := Entries.put c.options (.text key) v }

end Content

/-- What rules and publishing are given: a finished item, or a value still to be read as one. -/
inductive Source where
  | item (c : Content)
  | raw (v : Value)

def Source.content : Source → Outcome Content
  | .item c => .ok c
  | .raw v => Content.ofValue v

end Syndicate
