import Syndicate.Binary64
import Syndicate.Calendar.Timestamp

/-! Loosely typed values, as configuration and content files hold them. A mapping keeps the order
of its keys, which may be any scalars. -/

namespace Syndicate

inductive Value where
  | null
  | bool (b : Bool)
  | int (i : Int)
  | float (x : Binary64)
  | text (s : String)
  | date (d : Date)
  | timestamp (t : Timestamp)
  | list (items : List Value)
  | map (entries : List (Value × Value))
  deriving Inhabited

/-- The entries of a mapping in order. -/
abbrev Entries := List (Value × Value)

namespace Value

/-- A value that may be missing, null standing for its absence. -/
def ofOption (s : Option String) : Value := (s.map Value.text).getD .null

def isNull : Value → Bool
  | .null => true
  | _ => false

/-- Whether a value counts as true: null, false, zero and everything empty do not. -/
def truthy : Value → Bool
  | .null => false
  | .bool b => b
  | .int i => i ≠ 0
  | .float x => !x.isZero
  | .text s => s ≠ ""
  | .date _ | .timestamp _ => true
  | .list xs => xs ≠ []
  | .map es => es ≠ []

/-- The integer that a number without fraction part is, a truth value being one or zero. -/
def asInt? : Value → Option Int
  | .bool b => some (if b then 1 else 0)
  | .int i => some i
  | _ => none

/-- Whether two values are the same one that is no number. -/
def isOneNan : Value → Value → Bool
  | .float (.nan m), .float (.nan n) => m ≠ 0 && m = n
  | _, _ => false

mutual

/-- Equality of content: numbers compare by value whatever their type, and mappings without regard
to order. -/
def same : Value → Value → Bool
  | .null, .null => true
  | .text s, .text t => s == t
  | .date d, .date e => d == e
  | .timestamp t, .timestamp u => t.same u
  | .list xs, .list ys => sameItems xs ys
  | .map es, .map fs => es.length == fs.length && sameEntries es fs
  | .float x, .float y => x.same y
  | .float x, w => w.asInt?.any x.sameInt
  | v, .float y => v.asInt?.any y.sameInt
  | v, w => match v.asInt?, w.asInt? with
    | some i, some j => i == j
    | _, _ => false

def sameItems : List Value → List Value → Bool
  | [], [] => true
  | x :: xs, y :: ys => (x.same y || isOneNan x y) && sameItems xs ys
  | _, _ => false

/-- Whether every entry of the first mapping is in the second. -/
def sameEntries : Entries → Entries → Bool
  | [], _ => true
  | (k, v) :: es, fs =>
    (fs.any fun (l, w) => (k.same l || isOneNan k l) && (v.same w || isOneNan v w)) &&
      sameEntries es fs

end

/-- Whether two values are one member of a row, or one key: equal values, or the same one that is
no number and so does not equal itself. -/
def alike (v w : Value) : Bool := v.same w || isOneNan v w

/-- Whether a value can be a key or a member of a set: lists and mappings cannot. -/
def isScalar : Value → Bool
  | .list _ | .map _ => false
  | _ => true

end Value

namespace Entries

/-- The value under a text key. -/
def get? (es : Entries) (key : String) : Option Value :=
  (es.find? fun e => match e.1 with | .text s => s = key | _ => false).map (·.2)

/-- The value under a text key, null when there is none. -/
def get (es : Entries) (key : String) : Value := (Entries.get? es key).getD .null

def has (es : Entries) (key : String) : Bool := (Entries.get? es key).isSome

/-- Binds a key: an equal key keeps its place and its spelling and takes the new value, a new key
goes to the end. -/
def put {α : Type} : List (Value × α) → Value → α → List (Value × α)
  | [], k, v => [(k, v)]
  | (l, w) :: es, k, v => if k.alike l then (l, v) :: es else (l, w) :: put es k v

end Entries

end Syndicate
