import Settlement.Text.Blank
import Settlement.Yaml.Node

/-!
Reading YAML text: block mappings and sequences by indentation, flow collections in brackets, plain,
quoted and block scalars, names and aliases, comments. One document; tags are passed over.
-/

namespace Settlement
namespace Yaml

def isGap (c : Char) : Bool := c = ' ' ∨ c = '\t'

def skipGaps (cs : List Char) : List Char := cs.dropWhile isGap

def splitLine (cs : List Char) : List Char × List Char :=
  let line := cs.takeWhile (· ≠ '\n')
  let rest := (cs.dropWhile (· ≠ '\n')).drop 1
  (if line.getLast? = some '\r' then line.dropLast else line, rest)

/-- Is the rest of a line nothing but blanks and a comment? A comment in it follows a blank. -/
def isEnd (line : List Char) : Bool :=
  match skipGaps line with
  | [] => true
  | '#' :: _ => line.head? ≠ some '#'
  | _ => false

def isBlankLine (line : List Char) : Bool :=
  match skipGaps line with
  | [] | '#' :: _ => true
  | _ => false

def skipLines : (fuel : Nat) → List Char → List Char
  | 0, cs => cs
  | fuel + 1, cs =>
    if cs = [] then []
    else
      let (line, rest) := splitLine cs
      if isBlankLine line then skipLines fuel rest else cs

def indentOf (line : List Char) : Nat := (line.takeWhile (· = ' ')).length

def indicators : List Char :=
  [',', '[', ']', '{', '}', '#', '&', '*', '!', '|', '>', '\'', '"', '%', '@', Char.ofNat 96]

def startsPlain : List Char → Bool
  | [] => false
  | c :: rest =>
    if c = '-' ∨ c = '?' ∨ c = ':' then
      match rest with
      | d :: _ => !isGap d
      | [] => false
    else !indicators.contains c

/-- A plain scalar within a line, up to a comment or a colon that ends a key. In a flow, brackets and
commas end it too. -/
def spanPlain (flow : Bool) : (before : Option Char) → List Char → List Char × List Char
  | _, [] => ([], [])
  | before, c :: rest =>
    let brackets := [',', '[', ']', '{', '}']
    let endsKey := match rest with
      | [] => true
      | d :: _ => isGap d || d == '\n' || d == '\r' || (flow && brackets.contains d)
    let ends := (c == '#' && (before == some ' ' || before == some '\t')) || c == '\n' ||
      (c == ':' && endsKey) || (flow && brackets.contains c)
    if ends then ([], c :: rest)
    else
      let (taken, left) := spanPlain flow (some c) rest
      (c :: taken, left)

def trimGaps (cs : List Char) : List Char :=
  ((skipGaps cs).reverse.dropWhile fun c => isGap c || c == '\r').reverse

/-- The characters of a line break inside quotes: one blank, or a break for each empty line. -/
def foldBreaks (empty : Nat) : List Char :=
  if empty = 0 then [' '] else List.replicate empty '\n'

def skipBreaks : (fuel : Nat) → (empty : Nat) → List Char → Nat × List Char
  | 0, empty, cs => (empty, cs)
  | fuel + 1, empty, cs =>
    match skipGaps cs with
    | '\r' :: '\n' :: rest | '\n' :: rest => skipBreaks fuel (empty + 1) rest
    | rest => (empty, rest)

def readSingle : (fuel : Nat) → (acc : List Char) → List Char → Option (List Char × List Char)
  | 0, _, _ => none
  | _, _, [] => none
  | fuel + 1, acc, '\'' :: '\'' :: rest => readSingle fuel ('\'' :: acc) rest
  | _, acc, '\'' :: rest => some (acc.reverse, rest)
  | fuel + 1, acc, '\n' :: rest =>
    let (empty, rest) := skipBreaks fuel 0 rest
    readSingle fuel ((foldBreaks empty).reverse ++ acc.dropWhile fun c => isGap c || c == '\r') rest
  | fuel + 1, acc, c :: rest => readSingle fuel (c :: acc) rest

def hexCode (digits : List Char) : Option Char := do
  let n ← inBase? 16 digits
  if n < 0xD800 ∨ (0xE000 ≤ n ∧ n < 0x110000) then some (Char.ofNat n) else none

def escapes : List (Char × Nat) :=
  [('0', 0), ('a', 7), ('b', 8), ('t', 9), ('\t', 9), ('n', 10), ('v', 11), ('f', 12), ('r', 13),
    ('e', 27), (' ', 32), ('"', 34), ('/', 47), ('\\', 92), ('N', 0x85), ('_', 0xA0), ('L', 0x2028),
    ('P', 0x2029)]

def readDouble : (fuel : Nat) → (acc : List Char) → List Char → Option (List Char × List Char)
  | 0, _, _ => none
  | _, _, [] => none
  | _, acc, '"' :: rest => some (acc.reverse, rest)
  | fuel + 1, acc, '\\' :: '\n' :: rest => readDouble fuel acc (skipGaps rest)
  | fuel + 1, acc, '\\' :: e :: rest =>
    let width := if e = 'x' then 2 else if e = 'u' then 4 else if e = 'U' then 8 else 0
    if width = 0 then
      match escapes.lookup e with
      | some n => readDouble fuel (Char.ofNat n :: acc) rest
      | none => none
    else if rest.length < width then none
    else do
      let c ← hexCode (rest.take width)
      readDouble fuel (c :: acc) (rest.drop width)
  | fuel + 1, acc, '\n' :: rest =>
    let (empty, rest) := skipBreaks fuel 0 rest
    readDouble fuel ((foldBreaks empty).reverse ++ acc.dropWhile fun c => isGap c || c == '\r') rest
  | fuel + 1, acc, c :: rest => readDouble fuel (c :: acc) rest

def skipFlow : (fuel : Nat) → List Char → List Char
  | 0, cs => cs
  | fuel + 1, cs =>
    match cs with
    | ' ' :: rest | '\t' :: rest | '\n' :: rest | '\r' :: rest => skipFlow fuel rest
    | '#' :: rest => skipFlow fuel (rest.dropWhile (· ≠ '\n'))
    | _ => cs

def readName (cs : List Char) : Option (List Char × List Char) :=
  let name := cs.takeWhile fun c => c.isAlphanum || c = '-' || c = '_'
  let rest := cs.drop name.length
  let ends := match rest with
    | [] => true
    | c :: _ => [' ', '\t', '\n', '\r', '?', ':', ',', ']', '}', '%', '@', Char.ofNat 96].contains c
  if name.isEmpty || !ends then none else some (name, rest)

def afterTag (cs : List Char) : List Char :=
  cs.dropWhile fun c => !isGap c && c ≠ '\n' && c ≠ '\r'

mutual
def readFlow : (fuel : Nat) → List Char → Option (Node × List Char)
  | 0, _ => none
  | fuel + 1, cs =>
    match skipFlow fuel cs with
    | '[' :: rest => readFlowItems fuel [] rest
    | '{' :: rest => readFlowEntries fuel [] rest
    | '"' :: rest => (readDouble (rest.length + 1) [] rest).map fun (t, rest) => (.scalar t false, rest)
    | '\'' :: rest => (readSingle (rest.length + 1) [] rest).map fun (t, rest) => (.scalar t false, rest)
    | '*' :: rest => (readName rest).map fun (name, rest) => (.alias name, rest)
    | '&' :: rest => do
      let (name, rest) ← readName rest
      let (v, rest) ← readFlow fuel rest
      some (.named name v, rest)
    | '!' :: rest => readFlow fuel (afterTag rest)
    | rest =>
      if startsPlain rest then
        let (taken, left) := spanPlain true none rest
        some (.scalar (trimGaps taken) true, left)
      else none

def readFlowItems : (fuel : Nat) → (acc : List Node) → List Char → Option (Node × List Char)
  | 0, _, _ => none
  | fuel + 1, acc, cs =>
    match skipFlow fuel cs with
    | ']' :: rest => some (.sequence acc.reverse, rest)
    | rest => do
      let (v, rest) ← readFlow fuel rest
      let (v, rest) ← match skipFlow fuel rest with
        | ':' :: rest => do
          let (w, rest) ← readFlowValue fuel rest
          some (.mapping [(v, w)], rest)
        | rest => some (v, rest)
      match rest with
      | ',' :: rest => readFlowItems fuel (v :: acc) rest
      | ']' :: rest => some (.sequence (v :: acc).reverse, rest)
      | _ => none

def readFlowEntries : (fuel : Nat) → (acc : List (Node × Node)) → List Char →
    Option (Node × List Char)
  | 0, _, _ => none
  | fuel + 1, acc, cs =>
    match skipFlow fuel cs with
    | '}' :: rest => some (.mapping acc.reverse, rest)
    | rest => do
      let (key, rest) ← readFlow fuel rest
      let (v, rest) ← match skipFlow fuel rest with
        | ':' :: rest => readFlowValue fuel rest
        | rest => some (.null, rest)
      match rest with
      | ',' :: rest => readFlowEntries fuel ((key, v) :: acc) rest
      | '}' :: rest => some (.mapping ((key, v) :: acc).reverse, rest)
      | _ => none

def readFlowValue : (fuel : Nat) → List Char → Option (Node × List Char)
  | 0, _ => none
  | fuel + 1, cs =>
    match skipFlow fuel cs with
    | rest@(',' :: _) | rest@('}' :: _) | rest@(']' :: _) => some (.null, rest)
    | rest => do
      let (v, rest) ← readFlow fuel rest
      some (v, skipFlow fuel rest)
end

def blockLines (indent : Nat) : (fuel : Nat) → List Char → List (List Char) × List Char
  | 0, cs => ([], cs)
  | fuel + 1, cs =>
    if cs = [] then ([], [])
    else
      let (line, rest) := splitLine cs
      if (skipGaps line).isEmpty then
        let (lines, left) := blockLines indent fuel rest
        (line.drop indent :: lines, left)
      else if indent ≤ indentOf line then
        let (lines, left) := blockLines indent fuel rest
        (line.drop indent :: lines, left)
      else ([], cs)

/-- Further lines of a folded scalar: single breaks become blanks, empty lines become breaks. -/
def foldAfter : (empty : Nat) → List (List Char) → List Char
  | _, [] => []
  | empty, line :: rest =>
    if line.isEmpty then foldAfter (empty + 1) rest
    else foldBreaks empty ++ line ++ foldAfter 0 rest

def foldLines : List (List Char) → List Char
  | [] => []
  | line :: rest => line ++ foldAfter 0 rest

/-- A block scalar behind its mark: literal or folded, with its last breaks clipped, stripped or
kept. -/
def readBlockScalar (folded : Bool) (parent : Nat) (header rest : List Char) :
    Option (Node × List Char) := do
  let marks := header.takeWhile fun c => !isGap c
  if !isEnd (header.drop marks.length) then none
  let chomp := marks.filter fun c => (Digits.value? c).isNone
  if !([[], ['-'], ['+']].contains chomp) then none
  let start := skipLines (rest.length + 1) rest
  let indent := match marks.filterMap Digits.value? with
    | d :: _ => parent + d
    | [] => indentOf (splitLine start).1
  if indent ≤ parent ∧ parent ≠ 0 then some (.scalar [] false, rest)
  else
    let (lines, left) := blockLines indent (rest.length + 1) rest
    let content := (lines.reverse.dropWhile (·.isEmpty)).reverse
    let last := lines.length - content.length
    let body := if folded then foldLines content else ['\n'].intercalate content
    let tail :=
      if content.isEmpty then []
      else if chomp = ['-'] then []
      else if chomp = ['+'] then List.replicate (last + 1) '\n'
      else ['\n']
    some (.scalar (body ++ tail) false, left)

def emptyLines : (fuel : Nat) → List Char → Nat × List Char
  | 0, cs => (0, cs)
  | fuel + 1, cs =>
    let (line, rest) := splitLine cs
    if cs ≠ [] ∧ skipGaps line = [] then
      let (empty, left) := emptyLines fuel rest
      (empty + 1, left)
    else (0, cs)

def plainLines (parent : Int) : (fuel : Nat) → (acc : List Char) → List Char →
    Option (List Char × List Char)
  | 0, _, _ => none
  | fuel + 1, acc, cs =>
    let (empty, next) := emptyLines (cs.length + 1) cs
    let (line, rest) := splitLine next
    if next = [] ∨ indentOf line ≤ parent ∨ (skipGaps line).head? = some '#' then some (acc, cs)
    else
      let (taken, left) := spanPlain false none (skipGaps line)
      let joined := acc ++ foldBreaks empty ++ trimGaps taken
      if left = [] then plainLines parent fuel joined rest
      else if left.head? = some '#' then some (joined, rest)
      else none

def finishLine (cs : List Char) : Option (List Char) :=
  let (line, rest) := splitLine cs
  if isEnd line then some rest else none

def readKey (cs : List Char) : Option (Node × List Char) :=
  let behind := fun (key : Node) (rest : List Char) =>
    match skipGaps rest with
    | ':' :: rest =>
      match rest with
      | [] => some (key, [])
      | c :: _ => if isGap c ∨ c = '\n' ∨ c = '\r' then some (key, rest) else none
    | _ => none
  match cs with
  | '"' :: rest => do
    let (t, rest) ← readDouble (rest.length + 1) [] rest
    behind (.scalar t false) rest
  | '\'' :: rest => do
    let (t, rest) ← readSingle (rest.length + 1) [] rest
    behind (.scalar t false) rest
  | _ =>
    if startsPlain cs then
      let (taken, rest) := spanPlain false none cs
      behind (.scalar (trimGaps taken) true) rest
    else none

def isItem (line : List Char) : Bool :=
  match line with
  | ['-'] => true
  | '-' :: c :: _ => isGap c || c == '\r'
  | _ => false

mutual
/-- The value that begins in a line behind a key or a dash, or on the lines below. `column` is where
its parent begins. -/
def readInline : (fuel : Nat) → (column : Int) → (afterKey : Bool) → List Char →
    Option (Node × List Char)
  | 0, _, _, _ => none
  | fuel + 1, column, afterKey, cs =>
    let (line, below) := splitLine cs
    if isEnd line then
      let next := skipLines (below.length + 1) below
      let first := (splitLine next).1
      let indent := indentOf first
      if next = [] then some (.null, [])
      else if column < indent then readBlock fuel indent next
      else if afterKey ∧ column = indent ∧ isItem (first.drop indent) then
        readSequence fuel indent [] next
      else some (.null, next)
    else
      match skipGaps cs with
      | '|' :: _ =>
        readBlockScalar false column.toNat ((skipGaps line).drop 1) below
      | '>' :: _ =>
        readBlockScalar true column.toNat ((skipGaps line).drop 1) below
      | '[' :: rest => do
        let (v, rest) ← readFlow (2 * cs.length + 2) ('[' :: rest)
        some (v, ← finishLine rest)
      | '{' :: rest => do
        let (v, rest) ← readFlow (2 * cs.length + 2) ('{' :: rest)
        some (v, ← finishLine rest)
      | '"' :: rest => do
        let (t, rest) ← readDouble (rest.length + 1) [] rest
        some (.scalar t false, ← finishLine rest)
      | '\'' :: rest => do
        let (t, rest) ← readSingle (rest.length + 1) [] rest
        some (.scalar t false, ← finishLine rest)
      | '*' :: rest => do
        let (name, rest) ← readName rest
        some (.alias name, ← finishLine rest)
      | '&' :: rest => do
        let (name, rest) ← readName rest
        let (v, rest) ← readInline fuel column afterKey rest
        some (.named name v, rest)
      | '!' :: rest => readInline fuel column afterKey (afterTag rest)
      | rest =>
        if startsPlain rest then
          let (taken, left) := spanPlain false none (skipGaps line)
          if left = [] then do
            let (t, below) ← plainLines column (below.length + 1) (trimGaps taken) below
            some (.scalar t true, below)
          else if left.head? = some '#' then some (.scalar (trimGaps taken) true, below)
          else none
        else none

def readBlock : (fuel : Nat) → (indent : Nat) → List Char → Option (Node × List Char)
  | 0, _, _ => none
  | fuel + 1, indent, cs =>
    let (line, _) := splitLine cs
    if (line.drop indent).head? = some '\t' then none
    else if isItem (line.drop indent) then readSequence fuel indent [] cs
    else if (readKey (cs.drop indent)).isSome then readMapping fuel indent [] cs
    else readInline fuel (indent - 1 : Int) false (cs.drop indent)

def readMapping : (fuel : Nat) → (indent : Nat) → (acc : List (Node × Node)) → List Char →
    Option (Node × List Char)
  | 0, _, _, _ => none
  | fuel + 1, indent, acc, cs =>
    let cs := skipLines (cs.length + 1) cs
    let (line, _) := splitLine cs
    if cs = [] ∨ indentOf line < indent then some (.mapping acc.reverse, cs)
    else if indent < indentOf line then none
    else do
      let (key, rest) ← readKey (cs.drop indent)
      let (v, rest) ← readInline fuel indent true rest
      readMapping fuel indent ((key, v) :: acc) rest

def readSequence : (fuel : Nat) → (indent : Nat) → (acc : List Node) → List Char →
    Option (Node × List Char)
  | 0, _, _, _ => none
  | fuel + 1, indent, acc, cs =>
    let cs := skipLines (cs.length + 1) cs
    let (line, below) := splitLine cs
    if cs = [] ∨ indentOf line < indent then some (.sequence acc.reverse, cs)
    else if indent < indentOf line then none
    else if isItem (line.drop indent) then
      let inner := line.drop (indent + 1)
      let gap := (inner.takeWhile isGap).length
      let content := inner.drop gap
      if isItem content ∨ (!isEnd inner ∧ (readKey content).isSome) then do
        let depth := indent + 1 + gap
        let (v, rest) ← readBlock fuel depth
          (List.replicate depth ' ' ++ content ++ '\n' :: below)
        readSequence fuel indent (v :: acc) rest
      else do
        let (v, rest) ← readInline fuel indent false (cs.drop (indent + 1))
        readSequence fuel indent (v :: acc) rest
    else some (.sequence acc.reverse, cs)
end

def isMarker (mark : List Char) (line : List Char) : Bool :=
  mark <+: line && (match line.drop 3 with
    | [] => true
    | c :: _ => isGap c)

def documentText (cs : List Char) : Option (List Char) :=
  let cs := skipLines (cs.length + 1) (if cs.head? = some (Char.ofNat 0xFEFF) then cs.drop 1 else cs)
  let body :=
    if isMarker ['-', '-', '-'] (splitLine cs).1 then cs.drop 3 else cs
  let lines := (String.ofList body).splitOn "\n" |>.map String.toList
  let kept := lines.takeWhile fun line => !isMarker ['.', '.', '.'] line
  let after := lines.drop kept.length
  if (kept.drop 1).any (isMarker ['-', '-', '-']) then none
  else if (after.drop 1).any (!isBlankLine ·) then none
  else some (['\n'].intercalate kept)

def ofText? (s : String) : Option Yaml := do
  let cs ← documentText s.toList
  let cs := skipLines (cs.length + 1) cs
  if cs = [] then some null
  else
    let indent := indentOf (splitLine cs).1
    let (v, rest) ← readBlock (4 * cs.length + 4) indent cs
    if skipLines (rest.length + 1) rest = [] then v.value? else none

end Yaml
end Settlement
