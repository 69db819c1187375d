import RestGateway.Query.Tree

/-!
# Reading query strings

A query string is a sequence of pairs. A key may go on with keys in brackets, which lead deeper into
the tree; empty brackets append to a sequence. Pairs are put into the tree as they are read, so the
first fault in the text is the one that is reported.
-/

namespace RestGateway.Query

/-- Why a query string was refused. -/
inductive Cause
  | endedEarly
  | openBracket
  | unexpected (c : Char)
  | nestedSequence
  | mixedSequence
  | asMap (use : Use)
  | asSequence
  | sequenceAndMap (key : Bytes) (keys : List Key)
deriving Repr, DecidableEq

/-- A cause, and how many bytes were left when it was noticed; none if the end had been seen. -/
structure Fault where
  cause : Cause
  left : Option Nat
deriving Repr, DecidableEq

/-- A key in a report: a name stands in quotes. -/
def Key.describe : Key → String
  | .index n => toString n
  | .name s => "\"" ++ Utf8.mend s ++ "\""

/-- Keys in order: numbers first, then names by their bytes. -/
def Key.le : Key → Key → Bool
  | .index m, .index n => m ≤ n
  | .index _, .name _ => true
  | .name _, .index _ => false
  | .name s, .name t => Bytes.le s t

/-- The cause in words. -/
def Cause.describe : Cause → String
  | .endedEarly => "query string ended before expected"
  | .openBracket => "unexpected end of input while parsing nested key"
  | .unexpected c =>
    s!"unexpected character `{c}` while parsing nested key: expected `&`, `=` or `[`"
  | .nestedSequence => "unsupported: unable to parse nested maps of unindexed sequences "
  | .mixedSequence =>
    "unsupported: cannot mix unindexed sequences `abc[]=...` with indexed sequences `abc[0]=...`"
  | .asMap use =>
    s!"invalid input: the same key is used for both a {use.describe} and a nested map"
  | .asSequence => "invalid input: the same key is used for both a value and a sequence"
  | .sequenceAndMap key keys =>
    let name := (Utf8.decode? key).getD ""
    let joined := ", ".intercalate ((keys.mergeSort Key.le).map Key.describe)
    s!"invalid input: the key `{name}` appears in the input as both a sequence and a map "
      ++ s!"(with keys {joined})"

/-- The fault in words. Its position is how many bytes were read, and the end counts as one. -/
def Fault.message (f : Fault) (text : Bytes) : String :=
  let position := match f.left with
    | some left => text.length - left
    | none => text.length + 1
  s!"parsing failed with error: '{f.cause.describe}' at position: {position}"

/-- What follows a pair, or nothing if the text ended with it. -/
abbrev Rest := Option Bytes

/-- A fault in front of `rest`. -/
def faultAt {α : Type} (cause : Cause) (rest : Rest) : Except Fault α :=
  .error ⟨cause, rest.map List.length⟩

/-- The leaf behind an equals sign, and what follows the pair. -/
def readValue (s : Bytes) : Leaf × Rest :=
  let (value, rest) := s.span (· != 0x26)
  (if value.isEmpty then .blank else .text (Percent.decodeForm value),
    match rest with
    | [] => none
    | _ :: rest => some rest)

/-- The leaves of a value that empty brackets add to; `written` is its key. -/
def Tree.leaves? (node : Option Tree) (written : Bytes) : Except Cause (List Leaf) :=
  match node with
  | none => .ok []
  | some (.sequence ls) => .ok ls
  | some (.leaf _) => .error .asSequence
  | some (.map entries) => .error (.sequenceAndMap written (entries.map Prod.fst))

/-- Reads what follows empty brackets, which is a leaf behind the leaves `ls`. -/
def readAppended (ls : List Leaf) (s : Bytes) : Except Fault (Tree × Rest) :=
  match s with
  | [] => .ok (.sequence (ls ++ [.bare]), none)
  | b :: rest =>
    if b == 0x26 then .ok (.sequence (ls ++ [.bare]), some rest)
    else if b == 0x3D then
      let (l, rest) := readValue rest
      .ok (.sequence (ls ++ [l]), rest)
    else if b == 0x5B then faultAt .nestedSequence (some rest)
    else faultAt .mixedSequence (some rest)

/-- Reads a pair from behind an opening bracket into `node`; something has to follow the bracket.
With no more `depth`, what is left of the key is one key. `whole` is the text from the start of the
pair. -/
def readNested (whole : Bytes) : (depth : Nat) → Option Tree → Bytes →
    Except Fault (Tree × Rest)
  | _, _, [] => faultAt .endedEarly none
  | 0, node, s@(_ :: t) => do
    let entries ← (Tree.entries? node).mapError fun use => ⟨.asMap use, some t.length⟩
    let (name, rest) := s.span fun b => b != 0x26 && b != 0x3D
    let key := Key.ofWritten (0x5B :: name)
    let child := entries.get? key
    match rest with
    | [] => return (.map (entries.set key (Tree.add child .bare)), none)
    | b :: rest =>
      if b == 0x26 then return (.map (entries.set key (Tree.add child .bare)), some rest)
      else
        let (l, rest) := readValue rest
        return (.map (entries.set key (Tree.add child l)), rest)
  | depth + 1, node, s@(b :: t) =>
    if b == 0x5D then
      match Tree.leaves? node (whole.take (whole.length - s.length - 1)) with
      | .error cause => faultAt cause (some t)
      | .ok ls => readAppended ls t
    else do
      let entries ← (Tree.entries? node).mapError fun use => ⟨.asMap use, some t.length⟩
      let (name, rest) := s.span (· != 0x5D)
      let key := Key.ofWritten name
      let child := entries.get? key
      match rest with
      | [] => faultAt .openBracket none
      | _ :: [] => return (.map (entries.set key (Tree.add child .bare)), none)
      | _ :: c :: rest =>
        if c == 0x26 then return (.map (entries.set key (Tree.add child .bare)), some rest)
        else if c == 0x3D then
          let (l, rest) := readValue rest
          return (.map (entries.set key (Tree.add child l)), rest)
        else if c == 0x5B then do
          let (tree, rest) ← readNested whole depth child rest
          return (.map (entries.set key tree), rest)
        else faultAt (.unexpected (Char.ofNat c.toNat)) (some rest)

/-- How many brackets lead deeper into the tree. -/
def depthLimit : Nat := 5

/-- Reads a pair into the tree. Without a key the tree itself is meant. -/
def readPair (root : Option Tree) (s : Bytes) : Except Fault (Option Tree × Rest) :=
  let stored (key : Key) (l : Leaf) (rest : Rest) : Except Fault (Option Tree × Rest) :=
    match Tree.entries? root with
    | .error use => faultAt (.asMap use) rest
    | .ok entries => .ok (some (.map (entries.set key (Tree.add (entries.get? key) l))), rest)
  match s with
  | [] => .ok (root, none)
  | b :: t =>
    if b == 0x26 then .ok (root, some t)
    else if b == 0x3D then
      let (l, rest) := readValue t
      .ok (some (Tree.add root l), rest)
    else if b == 0x5B then
      (readNested s depthLimit root t).map fun (tree, rest) => (some tree, rest)
    else
      let (name, rest) := s.span fun b => b != 0x26 && b != 0x3D && b != 0x5B
      let key := Key.ofWritten name
      match rest with
      | [] => stored key .bare none
      | c :: rest =>
        if c == 0x26 then stored key .bare (some rest)
        else if c == 0x3D then
          let (l, rest) := readValue rest
          stored key l rest
        else do
          let entries ← (Tree.entries? root).mapError fun use => ⟨.asMap use, some rest.length⟩
          let (tree, rest) ← readNested s depthLimit (entries.get? key) rest
          return (some (.map (entries.set key tree)), rest)

/-- Reads the pairs in `s` into the tree. The clock is at least as long as the text. -/
def readPairs (root : Option Tree) : (clock : Bytes) → Bytes → Except Fault (Option Tree)
  | [], _ => .ok root
  | _ :: clock, s =>
    match readPair root s with
    | .error f => .error f
    | .ok (root, none) => .ok root
    | .ok (root, some rest) => readPairs root clock rest

/-- Reads a query string; an empty one has no value. -/
def parse (s : Bytes) : Except Fault (Option Tree) := readPairs none s s

end RestGateway.Query
