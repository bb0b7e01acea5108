import HeatPlacement.Yaml.Tokens

/-!
# Nodes of a document

* `Node`: scalars, aliases, sequences and mappings with their anchors and tags
* `Node.Parse`: a parse under way, with the tokens ahead and the anchors known so far
* `Node.ofTokens?`: the node of a token list that holds one document at most
* `Node.anchored`: the nodes that aliases may stand for
* `Node.size`: how much there is to read, with a mark at the start and at the end of a collection
-/

namespace HeatPlacement.Yaml

/-- A node. Anchors are numbers: an anchor is numbered by how many anchor names came before it,
so that a name which is used again may share its number with the next new name. -/
inductive Node where
  | scalar (anchor : Option Nat) (tag : Option TagName) (plain : Bool) (text : String)
  | alias (anchor : Nat)
  | sequence (anchor : Option Nat) (tag : Option TagName) (items : List Node)
  | mapping (anchor : Option Nat) (tag : Option TagName) (entries : List (Node × Node))
  deriving Repr, Inhabited

namespace Node

/-- The empty scalar, which is plain. -/
def nothing : Node := .scalar none none true ""

/-! ### Parsing -/

/-- A parse under way. -/
structure Parse where
  tokens : List Token
  /-- The anchor names with their numbers. -/
  anchors : List (List Char × Nat)
  /-- The tag handles with their expansions. -/
  handles : List (List Char × TagName)
  deriving Repr, Inhabited

/-- What stands before a node. -/
structure Header where
  anchor : Option Nat
  tag : Option TagName
  /-- Whether a tag was written, be it the lone exclamation mark. -/
  isTagged : Bool
  deriving Repr, Inhabited

namespace Parse

/-- Drop a token. -/
def skip (parse : Parse) : Parse := { parse with tokens := parse.tokens.tail }

/-- Give a number to an anchor. -/
def bind (parse : Parse) (name : List Char) : Nat × Parse :=
  let number := parse.anchors.length
  (number,
    { parse with anchors := (name, number) :: parse.anchors.filter fun entry => entry.1 ≠ name })

/-- The tag that a handle and a suffix spell. -/
def expand? (parse : Parse) (handle : List Char) (suffix : TagName) : Option TagName :=
  if handle.isEmpty then some suffix
  else (parse.handles.find? fun entry => entry.1 == handle).map fun entry => entry.2 ++ suffix

/-- The anchor and the tag before a node, in either order. -/
def header? (parse : Parse) : Option (Header × Parse) :=
  match parse.tokens with
  | .anchor name :: .tag handle suffix :: _ => do
    let tag ← parse.expand? handle suffix
    let (number, parse) := parse.skip.skip.bind name
    pure (⟨some number, some tag, true⟩, parse)
  | .tag handle suffix :: .anchor name :: _ => do
    let tag ← parse.expand? handle suffix
    let (number, parse) := parse.skip.skip.bind name
    pure (⟨some number, some tag, true⟩, parse)
  | .anchor name :: _ =>
    let (number, parse) := parse.skip.bind name
    some (⟨some number, none, false⟩, parse)
  | .tag handle suffix :: _ => do
    let tag ← parse.expand? handle suffix
    pure (⟨none, some tag, true⟩, parse.skip)
  | _ => some (⟨none, none, false⟩, parse)

end Parse

/-- The lone exclamation mark, which makes a scalar an ordinary one. -/
def lonelyTag : TagName := asciiBytes ['!']

/-- A scalar after its header. -/
def ofScalar (header : Header) (plain : Bool) (text : List Char) : Node :=
  let text := String.ofList text
  if header.tag = some lonelyTag then .scalar header.anchor none plain text
  else .scalar header.anchor header.tag plain text

/-- Whether the next token is one of the given ones, or the tokens have ended. -/
def stopsAt (stops : List Token) : List Token → Bool
  | [] => false
  | token :: _ => stops.contains token

mutual

/-- A node. Block collections are allowed if `block` holds, and a sequence whose dashes stand in
the column of the surrounding mapping's keys if `dashes` holds. -/
def node? (block dashes : Bool) (parse : Parse) : Nat → Option (Node × Parse)
  | 0 => none
  | steps + 1 =>
    match parse.tokens with
    | .alias name :: _ => do
      let number ← parse.anchors.lookup name
      pure (.alias number, parse.skip)
    | _ => do
      let (header, parse) ← parse.header?
      match parse.tokens with
      | .blockEntry :: _ =>
        -- The dash itself is left to the items, because no token opened the sequence.
        if dashes then do
          let (items, parse) ← dashItems? [] parse steps
          pure (.sequence header.anchor header.tag items, parse)
        else if header.anchor.isSome || header.isTagged then
          pure (.scalar header.anchor header.tag true "", parse)
        else none
      | .scalar text plain :: _ => pure (ofScalar header plain text, parse.skip)
      | .flowSequenceStart :: _ => do
        let (items, parse) ← flowItems? true [] parse.skip steps
        pure (.sequence header.anchor header.tag items, parse)
      | .flowMappingStart :: _ => do
        let (entries, parse) ← flowEntries? true [] parse.skip steps
        pure (.mapping header.anchor header.tag entries, parse)
      | .blockSequenceStart :: _ =>
        if block then do
          let (items, parse) ← blockItems? [] parse.skip steps
          pure (.sequence header.anchor header.tag items, parse)
        else if header.anchor.isSome || header.isTagged then
          pure (.scalar header.anchor header.tag true "", parse)
        else none
      | .blockMappingStart :: _ =>
        if block then do
          let (entries, parse) ← blockEntries? [] parse.skip steps
          pure (.mapping header.anchor header.tag entries, parse)
        else if header.anchor.isSome || header.isTagged then
          pure (.scalar header.anchor header.tag true "", parse)
        else none
      | _ =>
        if header.anchor.isSome || header.isTagged then
          pure (.scalar header.anchor header.tag true "", parse)
        else none
termination_by structural steps => steps

/-- A node, or nothing before one of the given tokens. -/
def orNothing? (stops : List Token) (block dashes : Bool) (parse : Parse) :
    Nat → Option (Node × Parse)
  | 0 => none
  | steps + 1 =>
    if stopsAt stops parse.tokens then some (nothing, parse)
    else node? block dashes parse steps
termination_by structural steps => steps

/-- The items of a block sequence, up to its end; those so far are in reverse order. -/
def blockItems? (done : List Node) (parse : Parse) : Nat → Option (List Node × Parse)
  | 0 => none
  | steps + 1 =>
    match parse.tokens with
    | .blockEntry :: _ =>
      match orNothing? [.blockEntry, .blockEnd] true false parse.skip steps with
      | none => none
      | some (item, parse) => blockItems? (item :: done) parse steps
    | .blockEnd :: _ => some (done.reverse, parse.skip)
    | _ => none
termination_by structural steps => steps

/-- The items of a sequence in the column of the surrounding mapping, which has no end of its
own. -/
def dashItems? (done : List Node) (parse : Parse) : Nat → Option (List Node × Parse)
  | 0 => none
  | steps + 1 =>
    match parse.tokens with
    | .blockEntry :: _ =>
      match orNothing? [.blockEntry, .key, .value, .blockEnd] true false parse.skip steps with
      | none => none
      | some (item, parse) => dashItems? (item :: done) parse steps
    | _ => some (done.reverse, parse)
termination_by structural steps => steps

/-- The entries of a block mapping, up to its end. -/
def blockEntries? (done : List (Node × Node)) (parse : Parse) :
    Nat → Option (List (Node × Node) × Parse)
  | 0 => none
  | steps + 1 =>
    match parse.tokens with
    | .key :: _ =>
      match orNothing? [.key, .value, .blockEnd] true true parse.skip steps with
      | none => none
      | some (key, parse) =>
        match blockValue? parse steps with
        | none => none
        | some (value, parse) => blockEntries? ((key, value) :: done) parse steps
    | .blockEnd :: _ => some (done.reverse, parse.skip)
    | _ => none
termination_by structural steps => steps

/-- The value of an entry of a block mapping, if there is one. -/
def blockValue? (parse : Parse) : Nat → Option (Node × Parse)
  | 0 => none
  | steps + 1 =>
    match parse.tokens with
    | .value :: _ => orNothing? [.key, .value, .blockEnd] true true parse.skip steps
    | _ => some (nothing, parse)
termination_by structural steps => steps

/-- The items of a sequence in brackets, up to the closing one. -/
def flowItems? (first : Bool) (done : List Node) (parse : Parse) :
    Nat → Option (List Node × Parse)
  | 0 => none
  | steps + 1 =>
    match parse.tokens with
    | .flowSequenceEnd :: _ => some (done.reverse, parse.skip)
    | token :: _ =>
      if !first && token ≠ .flowEntry then none
      else
        let parse := if first then parse else parse.skip
        match parse.tokens with
        | .flowSequenceEnd :: _ => some (done.reverse, parse.skip)
        | .key :: _ =>
          match flowPair? parse.skip steps with
          | none => none
          | some (pair, parse) =>
            flowItems? false (.mapping none none [pair] :: done) parse steps
        | _ =>
          match node? false false parse steps with
          | none => none
          | some (item, parse) => flowItems? false (item :: done) parse steps
    | [] => none
termination_by structural steps => steps

/-- A single entry inside a sequence in brackets. An entry without key loses the token at which
its key is missing, be it the colon. -/
def flowPair? (parse : Parse) : Nat → Option ((Node × Node) × Parse)
  | 0 => none
  | steps + 1 => do
    let (key, parse) ←
      if stopsAt [.value, .flowEntry, .flowSequenceEnd] parse.tokens then
        some (nothing, parse.skip)
      else node? false false parse steps
    match parse.tokens with
    | .value :: _ => do
      let (value, parse) ←
        orNothing? [.flowEntry, .flowSequenceEnd] false false parse.skip steps
      pure ((key, value), parse)
    | _ => pure ((key, nothing), parse)
termination_by structural steps => steps

/-- The entries of a mapping in braces, up to the closing one. -/
def flowEntries? (first : Bool) (done : List (Node × Node)) (parse : Parse) :
    Nat → Option (List (Node × Node) × Parse)
  | 0 => none
  | steps + 1 =>
    match parse.tokens with
    | .flowMappingEnd :: _ => some (done.reverse, parse.skip)
    | token :: _ =>
      if !first && token ≠ .flowEntry then none
      else
        let parse := if first then parse else parse.skip
        match parse.tokens with
        | .flowMappingEnd :: _ => some (done.reverse, parse.skip)
        | .key :: _ =>
          match orNothing? [.value, .flowEntry, .flowMappingEnd] false false parse.skip steps with
          | none => none
          | some (key, parse) =>
            match flowValue? parse steps with
            | none => none
            | some (value, parse) => flowEntries? false ((key, value) :: done) parse steps
        | _ =>
          match node? false false parse steps with
          | none => none
          | some (key, parse) => flowEntries? false ((key, nothing) :: done) parse steps
    | [] => none
termination_by structural steps => steps

/-- The value of an entry of a mapping in braces, if there is one. -/
def flowValue? (parse : Parse) : Nat → Option (Node × Parse)
  | 0 => none
  | steps + 1 =>
    match parse.tokens with
    | .value :: _ => orNothing? [.flowEntry, .flowMappingEnd] false false parse.skip steps
    | _ => some (nothing, parse)
termination_by structural steps => steps

end

/-! ### Documents -/

/-- The handles that every document knows. -/
def commonHandles : List (List Char × TagName) :=
  [(['!'], asciiBytes ['!']), (['!', '!'], asciiBytes "tag:yaml.org,2002:".toList)]

/-- The directives at the front: at most one version, 1.1 or 1.2, and each handle once. -/
def directives? (versioned : Bool) (handles : List (List Char × TagName)) :
    List Token → Option (List (List Char × TagName) × List Token)
  | .versionDirective major minor :: rest =>
    if versioned || major ≠ 1 || (minor ≠ 1 && minor ≠ 2) then none
    else directives? true handles rest
  | .tagDirective handle expansion :: rest =>
    if handles.any fun entry => entry.1 == handle then none
    else directives? versioned ((handle, expansion) :: handles) rest
  | tokens => some (handles, tokens)

/-- Whether only document ends are left. -/
def isFinished (tokens : List Token) : Bool := tokens.all (· == .documentEnd)

/-- The node of a token list; the empty list stands for an empty document. After the document
there may be nothing but document ends. -/
def ofTokens? : List Token → Option Node
  | [] => some nothing
  | tokens => do
    let (handles, rest) ← directives? false [] tokens
    let steps := 3 * tokens.length + 3
    let known := handles ++ commonHandles
    match rest with
    | .documentStart :: content =>
      match content with
      | [] => pure nothing
      | .documentEnd :: rest => if isFinished rest then pure nothing else none
      | .documentStart :: _ | .versionDirective _ _ :: _ | .tagDirective _ _ :: _ => none
      | _ =>
        let (node, parse) ← node? true false ⟨content, [], known⟩ steps
        if isFinished parse.tokens then pure node else none
    | _ =>
      -- Behind directives the document has to be opened.
      if rest.length < tokens.length then none
      else
        let (node, parse) ← node? true false ⟨rest, [], known⟩ steps
        if isFinished parse.tokens then pure node else none

/-! ### Anchors and size -/

mutual

/-- The nodes with anchors, in the order in which they start, in front of `more`. -/
def anchored (node : Node) (more : List (Nat × Node)) : List (Nat × Node) :=
  let here (anchor : Option Nat) (more : List (Nat × Node)) : List (Nat × Node) :=
    match anchor with
    | some number => (number, node) :: more
    | none => more
  match node with
  | .scalar anchor _ _ _ => here anchor more
  | .alias _ => more
  | .sequence anchor _ items => here anchor (anchoredItems items more)
  | .mapping anchor _ entries => here anchor (anchoredEntries entries more)
termination_by structural node

/-- The same for the items of a sequence. -/
def anchoredItems (items : List Node) (more : List (Nat × Node)) : List (Nat × Node) :=
  match items with
  | [] => more
  | item :: rest => anchored item (anchoredItems rest more)
termination_by structural items

/-- The same for the entries of a mapping. -/
def anchoredEntries (entries : List (Node × Node)) (more : List (Nat × Node)) :
    List (Nat × Node) :=
  match entries with
  | [] => more
  | entry :: rest => anchoredEntry entry (anchoredEntries rest more)
termination_by structural entries

/-- The same for one entry. -/
def anchoredEntry (entry : Node × Node) (more : List (Nat × Node)) : List (Nat × Node) :=
  match entry with
  | (key, value) => anchored key (anchored value more)
termination_by structural entry

end

mutual

/-- The number of scalars, aliases, and starts and ends of collections. -/
def size : Node → Nat
  | .scalar .. => 1
  | .alias _ => 1
  | .sequence _ _ items => sizeItems items + 2
  | .mapping _ _ entries => sizeEntries entries + 2
termination_by structural node => node

/-- The same for the items of a sequence. -/
def sizeItems : List Node → Nat
  | [] => 0
  | item :: rest => size item + sizeItems rest
termination_by structural items => items

/-- The same for the entries of a mapping. -/
def sizeEntries : List (Node × Node) → Nat
  | [] => 0
  | entry :: rest => sizeEntry entry + sizeEntries rest
termination_by structural entries => entries

/-- The same for one entry. -/
def sizeEntry : Node × Node → Nat
  | (key, value) => size key + size value
termination_by structural entry => entry

end

end Node

end HeatPlacement.Yaml
