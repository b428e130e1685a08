import Syndicate.Yaml.Token

/-! Reading values from YAML text: from tokens to the nodes of one document, and from these to
values. What is left out is null. -/

namespace Syndicate.Yaml

/-- A scalar, a sequence or a mapping, before scalars are given a meaning. -/
inductive Node where
  | scalar (text : String) (plain : Bool)
  | sequence (items : List Node)
  | mapping (pairs : List (Node × Node))
  deriving Inhabited

namespace Node

/-- The node that is not written. -/
def empty : Node := .scalar "" true

/-- Whether the next token is one of some. -/
def isAt (ts : List Token) (stops : List Token) : Bool := ts.head?.any stops.contains

variable (short : Problem)

mutual

/-- A node from the tokens at its front; `short` is what is wrong when these run out. A sequence
without indentation of its own may stand only where `loose` says so. Every call takes one unit of
fuel. -/
def read : (fuel : Nat) → (block loose : Bool) → List Token → Reading (Node × List Token)
  | 0, _, _, _ => malformed
  | n + 1, block, loose, ts => match ts with
    | [] => .error short
    | .scalar text plain :: rest => .ok (.scalar text plain, rest)
    | .flowSequenceStart :: rest => do
      let (items, rest) ← readFlowItems n true rest
      pure (.sequence items, rest)
    | .flowMappingStart :: rest => do
      let (pairs, rest) ← readFlowPairs n true rest
      pure (.mapping pairs, rest)
    | .blockEntry :: _ => if loose then do
        let (items, rest) ← readLooseItems n ts
        pure (.sequence items, rest)
      else malformed
    | .blockSequenceStart :: rest => if block then do
        let (items, rest) ← readItems n rest
        pure (.sequence items, rest)
      else malformed
    | .blockMappingStart :: rest => if block then do
        let (pairs, rest) ← readPairs n rest
        pure (.mapping pairs, rest)
      else malformed
    | _ => malformed

/-- A node, or the empty one in front of some tokens. -/
def readUnless : (fuel : Nat) → (stops : List Token) → (block loose : Bool) → List Token →
    Reading (Node × List Token)
  | 0, _, _, _, _ => malformed
  | n + 1, stops, block, loose, ts =>
    if isAt ts stops then .ok (empty, ts) else read n block loose ts

/-- The items of a sequence with indentation of its own, up to its end. -/
def readItems : (fuel : Nat) → List Token → Reading (List Node × List Token)
  | 0, _ => malformed
  | n + 1, ts => match ts with
    | [] => .error short
    | .blockEntry :: rest => do
      let (item, rest) ← readUnless n [.blockEntry, .blockEnd] true false rest
      let (items, rest) ← readItems n rest
      pure (item :: items, rest)
    | .blockEnd :: rest => .ok ([], rest)
    | _ => malformed

/-- The items of a sequence without indentation of its own. -/
def readLooseItems : (fuel : Nat) → List Token → Reading (List Node × List Token)
  | 0, _ => malformed
  | n + 1, ts => match ts with
    | [] => .error short
    | .blockEntry :: rest => do
      let (item, rest) ← readUnless n [.blockEntry, .key, .value, .blockEnd] true false rest
      let (items, rest) ← readLooseItems n rest
      pure (item :: items, rest)
    | _ => .ok ([], ts)

/-- The pairs of a mapping in a block, up to its end. -/
def readPairs : (fuel : Nat) → List Token → Reading (List (Node × Node) × List Token)
  | 0, _ => malformed
  | n + 1, ts => match ts with
    | [] => .error short
    | .blockEnd :: rest => .ok ([], rest)
    | .key :: rest => do
      let (k, rest) ← readUnless n [.key, .value, .blockEnd] true true rest
      let (v, rest) ← readValue n [.key, .value, .blockEnd] true rest
      let (pairs, rest) ← readPairs n rest
      pure ((k, v) :: pairs, rest)
    | _ => malformed

/-- The value behind a key, empty when there is none. -/
def readValue : (fuel : Nat) → (stops : List Token) → (block : Bool) → List Token →
    Reading (Node × List Token)
  | 0, _, _, _ => malformed
  | n + 1, stops, block, ts => match ts with
    | [] => .error short
    | .value :: rest => readUnless n stops block block rest
    | _ => .ok (empty, ts)

/-- The items of a sequence in brackets. An item may be a single pair. -/
def readFlowItems : (fuel : Nat) → (first : Bool) → List Token → Reading (List Node × List Token)
  | 0, _, _ => malformed
  | n + 1, first, ts =>
    if ts = [] then .error short
    else if isAt ts [.flowSequenceEnd] then .ok ([], ts.tail)
    else if !first && !isAt ts [.flowEntry] then malformed
    else
      let ts := if first then ts else ts.tail
      match ts with
      | .flowSequenceEnd :: rest => .ok ([], rest)
      | .key :: rest => do
        let (k, rest) ← readUnless n [.value, .flowEntry, .flowSequenceEnd] false false rest
        let (v, rest) ← readValue n [.flowEntry, .flowSequenceEnd] false rest
        let (items, rest) ← readFlowItems n false rest
        pure (.mapping [(k, v)] :: items, rest)
      | _ => do
        let (item, rest) ← read n false false ts
        let (items, rest) ← readFlowItems n false rest
        pure (item :: items, rest)

/-- The pairs of a mapping in braces. A key may stand alone. -/
def readFlowPairs : (fuel : Nat) → (first : Bool) → List Token →
    Reading (List (Node × Node) × List Token)
  | 0, _, _ => malformed
  | n + 1, first, ts =>
    if ts = [] then .error short
    else if isAt ts [.flowMappingEnd] then .ok ([], ts.tail)
    else if !first && !isAt ts [.flowEntry] then malformed
    else
      let ts := if first then ts else ts.tail
      match ts with
      | .flowMappingEnd :: rest => .ok ([], rest)
      | .key :: rest => do
        let (k, rest) ← readUnless n [.value, .flowEntry, .flowMappingEnd] false false rest
        let (v, rest) ← readValue n [.flowEntry, .flowMappingEnd] false rest
        let (pairs, rest) ← readFlowPairs n false rest
        pure ((k, v) :: pairs, rest)
      | _ => do
        let (k, rest) ← read n false false ts
        let (pairs, rest) ← readFlowPairs n false rest
        pure ((k, empty) :: pairs, rest)

end

/-- The fuel for some tokens: a token is passed by few calls. -/
def fuelFor (ts : List Token) : Nat := 4 * ts.length + 4

/-- The node of a document, and what follows it. -/
def ofTokens (ts : List Token) : Reading (Node × List Token) :=
  match ts with
  | .documentStart :: rest =>
    readUnless short (fuelFor rest) [.documentStart, .documentEnd, .streamEnd] true false rest
  | _ => read short (fuelFor ts) true false ts

def isDocumentEnd (t : Token) : Bool := t = .documentEnd

/-- The node of the only document there is, if there is one. -/
def single? (ts : Tokens) : Reading (Option Node) :=
  if ts.tokens = [.streamEnd] then .ok none
  else do
    let (node, rest) ← ofTokens ts.problem ts.tokens
    match rest.dropWhile isDocumentEnd with
    | [] => .error ts.problem
    | [.streamEnd] => pure (some node)
    | _ => malformed

/-- The value of a scalar; one that is not plain is its own text. -/
def scalarValue (text : String) (plain : Bool) : Reading Value :=
  if plain then Scalar.resolve text else .ok (.text text)

/-- The value of a node as a key, which must be a scalar. A plain equals sign is a text there. -/
def key : Node → Reading Value
  | .scalar text plain => if text = "=" then .ok (.text text) else scalarValue text plain
  | _ => malformed

mutual

/-- The value of a node. The last of equal keys counts. -/
def toValue : Node → Reading Value
  | .scalar text plain => scalarValue text plain
  | .sequence items => do pure (.list (← toValues items))
  | .mapping pairs => do pure (.map (← toEntries [] pairs))

def toValues : List Node → Reading (List Value)
  | [] => .ok []
  | x :: xs => do pure ((← toValue x) :: (← toValues xs))

def toEntries (done : Entries) : List (Node × Node) → Reading Entries
  | [] => .ok done
  | (k, v) :: pairs => do
    let key ← k.key
    toEntries (Entries.put done key (← toValue v)) pairs

end

/-! ### Problems

Collections are made level by level: one is filled with its scalars, and its keys are looked at,
when all that lie further out are. So of several problems the one that lies furthest out counts,
and of two on one level the first. -/

/-- Whether a node is a plain mark for merging, which no key may be. -/
def isMerge : Node → Bool
  | .scalar text plain => plain && text = "<<"
  | _ => false

/-- A collection is left for later, a scalar must be a value. -/
def postpone : Node → Reading (List Node)
  | .scalar text plain => do
    let _ ← scalarValue text plain
    pure []
  | x => .ok [x]

def inspectItems : List Node → Reading (List Node)
  | [] => .ok []
  | x :: xs => do
    let now ← postpone x
    pure (now ++ (← inspectItems xs))

def inspectPairs : List (Node × Node) → Reading (List Node)
  | [] => .ok []
  | (k, v) :: pairs => do
    let _ ← k.key
    let now ← postpone v
    pure (now ++ (← inspectPairs pairs))

/-- The collections in a node, whose scalars and keys must be values. -/
def inspect : Node → Reading (List Node)
  | .scalar text plain => postpone (.scalar text plain)
  | .sequence items => inspectItems items
  | .mapping pairs => if pairs.any fun p => p.1.isMerge then malformed else inspectPairs pairs

def inspectLevel : List Node → Reading (List Node)
  | [] => .ok []
  | x :: xs => do
    let below ← inspect x
    pure (below ++ (← inspectLevel xs))

/-- Looks for problems in a number of levels. -/
def inspectLevels : (levels : Nat) → List Node → Reading Unit
  | 0, _ => .ok ()
  | n + 1, level => if level.isEmpty then .ok () else do inspectLevels n (← inspectLevel level)

/-- The value of a node that has at most a number of levels. -/
def construct (levels : Nat) (node : Node) : Reading Value := do
  inspectLevels levels [node]
  node.toValue

end Node

/-- The value of the document in a text that holds nothing but characters it may hold. -/
def read (s : String) : Reading Value := do
  let ts := scan s
  match ← Node.single? ts with
  | some node => node.construct ts.tokens.length
  | none => pure .null

/-- The value of the document in a text, null when there is none. -/
def parse (s : String) : Reading Value := if s.toList.all isAllowed then read s else malformed

/-- How much of a text that comes in parts is there when a place in it is reached. The first part
is twice as long as the others. -/
def present (place : Nat) : Nat := 8192 + (place - 8192 + 4095) / 4096 * 4096

/-- The value of the document in a text that comes in parts. A character that it may not hold is
found once its part is there, so that a problem which shows before goes first. -/
def parseParts (s : String) : Reading Value :=
  match s.toList.findIdx? fun c => !isAllowed c with
  | none => read s
  | some place => match read s with
    | .error (.impossible f (some seen)) =>
      if present seen ≤ place then .error (.impossible f (some seen)) else malformed
    | _ => malformed

end Syndicate.Yaml
