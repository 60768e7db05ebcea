import ImportClosure.Yaml.Token
/-!
The tokens of YAML that have an inside: scalars, names, tags and directives.

Lines within a scalar are folded: a single line end becomes a space, each further one stays.
-/

namespace ImportClosure.Yaml.Scanner

/-! ## Names, tags and directives -/

/-- A name, after which something else than a part of a name may stand only if `p` says so. -/
def nameBefore (p : CodePoint → Bool) : Scanner Text := do
  let name ← takeWhile isNamePart
  if name = [] || !p (← peek 0) then malformed else pure name

/-- The name of an anchor or alias after its mark. -/
def anchorName : Scanner Text := do
  forward 1
  nameBefore fun c => isBlankOrEnd c || isOneOf "?:,]\x7d%@`" c

/-- A byte written as a percent sign and two hexadecimal digits. -/
def escapedByte : Scanner UInt8 := do
  match ← taken 3 with
  | [_, a, b] =>
    match a.hexValue?, b.hexValue? with
    | some a, some b =>
      forward 3
      pure (a * 16 + b).toUInt8
    | _, _ => malformed
  | _ => malformed

/-- A run of escaped bytes, which have to be UTF-8. -/
def escapedText : Scanner Text := do
  let bytes ← many do
    if (← peek 0) = CodePoint.ofChar '%' then some <$> escapedByte else pure none
  match String.fromUTF8? (ByteArray.mk bytes.toArray) with
  | some s => pure (Text.ofString s)
  | none => malformed

/-- The part of a tag that is an address. -/
def address : Scanner Text := do
  let parts ← many do
    let c ← peek 0
    if c = '%' then some <$> escapedText
    else
      let plain ← takeWhile fun c =>
        c ≠ CodePoint.ofChar '%' && (isNamePart c || isOneOf ";/?:@&=+$,.!~*'()[]" c)
      pure (if plain = [] then none else some plain)
  if parts = [] then malformed else pure parts.flatten

/-- A tag handle: one exclamation mark, or a name between two. -/
def tagHandle : Scanner Text := do
  let mark : CodePoint := '!'
  if (← peek 0) ≠ mark then malformed
  else
    let s ← get
    let n := countFrom s isNamePart s.source.size 1
    if s.ahead 1 = CodePoint.ofChar ' ' then take 1
    else if s.ahead n = mark then take (n + 1)
    else malformed

/-- A tag without a handle of its own. -/
def verbatimTag : Scanner Token := do
  forward 2
  let suffix ← address
  if (← peek 0) = CodePoint.ofChar '>' then
    forward 1
    pure (.tag none suffix)
  else malformed

/-- A second exclamation mark stands in the tag that begins here. -/
def tagHasHandle : Scanner Bool := do
  let s ← get
  let n := countFrom s (fun c => !isSpaceOrEnd c && c ≠ CodePoint.ofChar '!') s.source.size 1
  pure (s.ahead n = CodePoint.ofChar '!')

/-- A tag. -/
def tagToken : Scanner Token := do
  let c ← peek 1
  let token ← if c = '<' then verbatimTag
    else if isBlankOrEnd c then
      forward 1
      pure (.tag none ['!'])
    else if ← tagHasHandle then
      let handle ← tagHandle
      pure (.tag (some handle) (← address))
    else
      forward 1
      pure (.tag (some ['!']) (← address))
  if isSpaceOrEnd (← peek 0) then pure token else malformed

/-- Decimal digits. -/
def digits : Scanner Nat := do
  match ← takeWhile CodePoint.isDigit with
  | [] => malformed
  | ds => pure (ds.foldl (fun n d => n * 10 + (d.val - 48)) 0)

/-- Spaces. -/
def spaces : Scanner Unit := do
  let _ ← takeWhile (· = CodePoint.ofChar ' ')

/-- The rest of a line in which nothing but a comment may stand, with its end. -/
def emptyRest : Scanner Unit := do
  spaces
  if (← peek 0) = CodePoint.ofChar '#' then
    let _ ← takeWhile (fun c => !isBreakOrEnd c)
  if isBreakOrEnd (← peek 0) then
    let _ ← lineBreak
  else malformed

/-- A directive that names the version, after the word for it. -/
def versionDirective : Scanner Token := do
  spaces
  let major ← digits
  if (← peek 0) = CodePoint.ofChar '.' then
    forward 1
    let _ ← digits
    if isSpaceOrEnd (← peek 0) then pure (.version major) else malformed
  else malformed

/-- A directive about a tag handle, after the word for it. -/
def handleDirective : Scanner Token := do
  spaces
  let name ← tagHandle
  if (← peek 0) = CodePoint.ofChar ' ' then
    spaces
    let lead ← address
    if isSpaceOrEnd (← peek 0) then pure (.handle name lead) else malformed
  else malformed

/-- A directive. -/
def directive : Scanner Token := do
  forward 1
  let name ← nameBefore isSpaceOrEnd
  let token ← if name = Text.ofString "YAML" then versionDirective
    else if name = Text.ofString "TAG" then handleDirective
    else
      let _ ← takeWhile (fun c => !isBreakOrEnd c)
      pure .otherDirective
  emptyRest
  pure token

/-! ## Scalars in quotes -/

/-- What a letter after a backslash stands for. -/
def escapes : List (Char × Nat) :=
  [('0', 0), ('a', 7), ('b', 8), ('t', 9), ('\t', 9), ('n', 10), ('v', 11), ('f', 12), ('r', 13),
    ('e', 27), (' ', 32), ('"', 34), ('\\', 92), ('/', 47), ('N', 0x85), ('_', 0xA0),
    ('L', 0x2028), ('P', 0x2029)]

/-- How many hexadecimal digits follow a letter after a backslash. -/
def escapeWidth? (c : CodePoint) : Option Nat :=
  if c = 'x' then some 2 else if c = 'u' then some 4 else if c = 'U' then some 8 else none

/-- A code point by its number, of so many hexadecimal digits. -/
def numberedEscape (width : Nat) : Scanner Text := do
  let ds ← take width
  match ds.mapM CodePoint.hexValue? with
  | none => malformed
  | some ns =>
    if ns.length < width then malformed
    else
      match CodePoint.ofNat? (ns.foldl (fun n d => n * 16 + d) 0) with
      | some c => pure [c]
      | none => throw (.unmakeable "ValueError" "chr() arg not in range(0x110000)")

/-- The line ends between two lines of a scalar in quotes, which no document marker may begin. -/
def quotedBreaks : Scanner Text := do
  let parts ← many do
    if ← seesAnyMarker then malformed
    else
      let _ ← takeWhile (fun c => c = CodePoint.ofChar ' ' || c = CodePoint.ofChar '\t')
      if isBreak (← peek 0) then some <$> lineBreak else pure none
  pure parts.flatten

/-- An escape. -/
def escape : Scanner Text := do
  forward 1
  let c ← peek 0
  match escapes.find? (fun e => c = CodePoint.ofChar e.1) with
  | some e =>
    forward 1
    pure [CodePoint.ofNat e.2]
  | none =>
    match escapeWidth? c with
    | some width =>
      forward 1
      numberedEscape width
    | none =>
      if isBreak c then
        let _ ← lineBreak
        quotedBreaks
      else malformed

/-- A piece of a scalar in quotes without blanks, if one comes next. -/
def quotedPiece? (double : Bool) : Scanner (Option Text) := do
  let plain ← takeWhile fun c => !isBlankOrEnd c && !isOneOf "'\"\\" c
  if plain ≠ [] then pure (some plain)
  else
    let c ← peek 0
    if !double && c = '\'' && (← peek 1) = CodePoint.ofChar '\'' then
      forward 2
      pure (some ['\''])
    else if (double && c = '\'') || (!double && (c = '"' || c = '\\')) then
      forward 1
      pure (some [c])
    else if double && c = '\\' then some <$> escape
    else pure none

/-- The blanks at some place in a scalar in quotes, lines folded. -/
def quotedBlanks : Scanner Text := do
  let blanks ← takeWhile (fun c => c = CodePoint.ofChar ' ' || c = CodePoint.ofChar '\t')
  let c ← peek 0
  if c.val = 0 then malformed
  else if isBreak c then
    let first ← lineBreak
    let others ← quotedBreaks
    if first ≠ [CodePoint.ofChar '\n'] then pure (first ++ others)
    else if others = [] then pure [' ']
    else pure others
  else pure blanks

/-- A scalar in quotes. -/
def quotedScalar (quote : CodePoint) : Scanner Token := do
  let double := quote = CodePoint.ofChar '"'
  forward 1
  let first ← many (quotedPiece? double)
  let others ← many do
    if (← peek 0) = quote then pure none
    else
      let blanks ← quotedBlanks
      let pieces ← many (quotedPiece? double)
      pure (some (blanks ++ pieces.flatten))
  forward 1
  pure (.scalar (first.flatten ++ others.flatten) false)

/-! ## Plain scalars -/

/-- The number of code points of a plain scalar up to a blank. -/
def plainLength (s : Scan) (inFlow : Bool) : Nat → Nat → Nat
  | 0, n => n
  | fuel + 1, n =>
    let c := s.ahead n
    let next := s.ahead (n + 1)
    if isBlankOrEnd c then n
    else if c = ':' && (isBlankOrEnd next || (inFlow && isOneOf ",[]\x7b\x7d" next)) then n
    else if inFlow && isOneOf ",?[]\x7b\x7d" c then n
    else plainLength s inFlow fuel (n + 1)

/-- Further line ends and spaces in front of a line of a plain scalar; nothing at the end of the
document. -/
def plainBreaks : Scanner (Option Text) := do
  let parts ← many do
    let c ← peek 0
    if c = ' ' then
      forward 1
      pure (some (some []))
    else if isBreak c then
      let t ← lineBreak
      if ← seesAnyMarker then pure (some none) else pure (some (some t))
    else pure none
  if parts.contains none then pure none else pure (some (parts.filterMap id).flatten)

/-- The blanks within a plain scalar, lines folded; nothing at its end. -/
def plainBlanks : Scanner Text := do
  let blanks ← takeWhile (· = CodePoint.ofChar ' ')
  if isBreak (← peek 0) then
    let first ← lineBreak
    modify fun s => { s with keyAllowed := true }
    if ← seesAnyMarker then pure []
    else
      match ← plainBreaks with
      | none => pure []
      | some others =>
        if first ≠ [CodePoint.ofChar '\n'] then pure (first ++ others)
        else if others = [] then pure [' ']
        else pure others
  else pure blanks

/-- The pieces of a plain scalar, each with the blanks in front of it. -/
def plainPieces : Nat → Text → Text → Scanner Text
  | 0, done, _ => pure done
  | fuel + 1, done, blanks => do
    let s ← get
    if s.ahead 0 = CodePoint.ofChar '#' then pure done
    else
      let n := plainLength s (0 < s.depth) (s.source.size - s.index) 0
      if n = 0 then pure done
      else
        modify fun s => { s with keyAllowed := false }
        let piece ← take n
        let done := done ++ blanks ++ piece
        let blanks ← plainBlanks
        let s ← get
        if blanks = [] || s.ahead 0 = CodePoint.ofChar '#'
            || (s.depth = 0 && (s.column : Int) < s.indent + 1) then pure done
        else plainPieces fuel done blanks

/-- A plain scalar. -/
def plainScalar : Scanner Token := do
  let t ← plainPieces ((← get).source.size + 1) [] []
  pure (.scalar t true)

/-! ## Scalars by indentation -/

/-- What becomes of the line ends at the end of a scalar. -/
inductive Chomping where
  /-- They are dropped. -/
  | strip
  /-- The first stays. -/
  | clip
  /-- They stay. -/
  | keep
deriving DecidableEq

/-- What stands for a way of chomping at the front, if anything does. -/
def chomping? : Scanner (Option Chomping) := do
  let c ← peek 0
  if c = '+' then
    forward 1
    pure (some .keep)
  else if c = '-' then
    forward 1
    pure (some .strip)
  else pure none

/-- A digit that gives the indentation, if there is one; zero is none. -/
def increment? : Scanner (Option Nat) := do
  let c ← peek 0
  if c.isDigit then
    if c = '0' then malformed
    else
      forward 1
      pure (some (c.val - 48))
  else pure none

/-- The chomping and the indentation in the first line of a scalar. -/
def blockHeader : Scanner (Chomping × Option Nat) := do
  let before ← chomping?
  let increment ← increment?
  let chomping ← match before with
    | some c => pure c
    | none => pure ((← chomping?).getD .clip)
  if isSpaceOrEnd (← peek 0) then pure (chomping, increment) else malformed

/-- Empty lines in front of the first line with content, and the deepest column in them. -/
def blockMargin : Scanner (Text × Nat) := do
  let parts ← many do
    let c ← peek 0
    if c = ' ' then
      forward 1
      pure (some (([] : Text), (← get).column))
    else if isBreak c then pure (some (← lineBreak, 0))
    else pure none
  pure ((parts.map Prod.fst).flatten, (parts.map Prod.snd).foldl max 0)

/-- Goes up to a column through spaces. -/
def spacesUpTo (column : Nat) : Scanner Unit := do
  let s ← get
  let n := countFrom s (· = CodePoint.ofChar ' ') (column - s.column) 0
  forward n

/-- Empty lines before the next line of a scalar with this indentation. -/
def blockBreaks (indent : Nat) : Scanner Text := do
  spacesUpTo indent
  let parts ← many do
    if isBreak (← peek 0) then
      let t ← lineBreak
      spacesUpTo indent
      pure (some t)
    else pure none
  pure parts.flatten

/-- The lines of a scalar; `pending` is the line end of the line before, if it was not written
yet, and `breaks` are the empty lines after it. -/
def blockLines (folded : Bool) (indent : Nat) :
    Nat → Text → Text → Text → Scanner (Text × Text × Text)
  | 0, done, pending, breaks => pure (done, pending, breaks)
  | fuel + 1, done, pending, breaks => do
    let s ← get
    if s.column ≠ indent || (s.ahead 0).val = 0 then pure (done, pending, breaks)
    else
      let starts := !isOneOf " \t" (s.ahead 0)
      let line ← takeWhile (fun c => !isBreakOrEnd c)
      let done := done ++ pending ++ breaks ++ line
      let ending ← lineBreak
      let breaks ← blockBreaks indent
      let s ← get
      if s.column ≠ indent || (s.ahead 0).val = 0 then pure (done, ending, breaks)
      else
        let joined : Text :=
          if folded && ending = [CodePoint.ofChar '\n'] && starts && !isOneOf " \t" (s.ahead 0) then
            if breaks = [] then [' '] else []
          else ending
        blockLines folded indent fuel done joined breaks

/-- A scalar by indentation. -/
def blockScalar (folded : Bool) : Scanner Token := do
  forward 1
  let (chomping, increment) ← blockHeader
  emptyRest
  let least := max 1 ((← get).indent + 1).toNat
  let (breaks, indent) ← match increment with
    | some n => do
      let indent := least + n - 1
      pure (← blockBreaks indent, indent)
    | none => do
      let (breaks, deepest) ← blockMargin
      pure (breaks, max least deepest)
  let (done, ending, breaks) ←
    blockLines folded indent ((← get).source.size + 1) [] [] breaks
  let last := match chomping with
    | .strip => []
    | .clip => ending
    | .keep => ending ++ breaks
  pure (.scalar (done ++ last) false)

end ImportClosure.Yaml.Scanner
