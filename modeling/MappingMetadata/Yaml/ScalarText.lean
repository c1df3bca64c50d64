import MappingMetadata.Yaml.Cursor

/-!
# The text of scalars

How plain, quoted and block scalars are taken from a text. Inside plain and quoted scalars a gap
that spans lines is folded: one line feed becomes a blank, of several the first is dropped.

The loops carry a bound on their number of steps; every step goes at least one character further.
-/

namespace MappingMetadata.Yaml

/-! ## Gaps -/

/-- Blanks and line breaks between words. -/
structure Gap where
  /-- The blanks in front of the first break. -/
  blanks : List Char
  /-- The breaks. -/
  breaks : List Char

namespace Gap

/-- What stands for the gap in the text of the scalar. -/
def folded (g : Gap) : List Char :=
  match g.breaks with
  | [] => g.blanks
  | '\n' :: [] => [' ']
  | '\n' :: more => more
  | breaks => breaks

/-- Take a gap. In lines after the first, a tab before column `limit` is refused. -/
def take (limit : Nat) (afterBreak : Bool) (g : Gap) (line column : Nat) :
    List Char → Option (Gap × Cursor)
  | [] => some (g, ⟨[], line, column⟩)
  | c :: cs =>
    if isBlank c then
      if afterBreak && c == '\t' && column < limit then none
      else
        let g := if afterBreak then g else { g with blanks := g.blanks ++ [c] }
        take limit afterBreak g line (column + 1) cs
    else if isBreak c then
      take limit true { g with breaks := g.breaks ++ [c] } (line + 1) 0 cs
    else some (g, ⟨c :: cs, line, column⟩)

end Gap

/-- The gap at a cursor. -/
def Cursor.takeGap (c : Cursor) (limit : Nat) : Option (Gap × Cursor) :=
  Gap.take limit false ⟨[], []⟩ c.line c.column c.rest

/-- The gap after an escaped line break. -/
def Cursor.takeLineGap (c : Cursor) : Option (Gap × Cursor) :=
  Gap.take 0 true ⟨[], []⟩ c.line c.column c.rest

/-! ## Plain scalars -/

/-- A word of a plain scalar: up to a gap, a colon before a gap, or in flow context a bracket or
comma. In flow context a colon must not stand directly before a bracket, comma or question mark. -/
def plainWord (inFlow : Bool) : List Char → Option (List Char)
  | [] => some []
  | c :: cs =>
    if isBlank c || isBreak c then some []
    else if inFlow && c == ':' && (cs.head?.any fun d => isFlowSign d || d == '?') then none
    else if (c == ':' && Cursor.gapAt cs) || (inFlow && isFlowSign c) then some []
    else (plainWord inFlow cs).map (c :: ·)

/-- Words of a plain scalar after the text read so far and the gap in front. The result says also
whether the scalar ended in a later line than its last word. -/
def plainWords (inFlow : Bool) (limit : Nat) : Nat → List Char → Gap → Cursor →
    Option (List Char × Bool × Cursor)
  | 0, _, _, _ => none
  | steps + 1, text, gap, c =>
    let done := some (text, !gap.breaks.isEmpty, c)
    if c.atDocumentMarker || c.at? '#' then done
    else
      match plainWord inFlow c.rest with
      | none => none
      | some [] => done
      | some word =>
        let text := text ++ gap.folded ++ word
        let c := c.skip word.length
        match c.takeGap limit with
        | none => none
        | some (gap, after) =>
          let stops := gap.blanks.isEmpty && gap.breaks.isEmpty
          if stops || (!inFlow && after.column < limit) then
            some (text, !gap.breaks.isEmpty, after)
          else plainWords inFlow limit steps text gap after

/-- The text of a plain scalar whose lines are indented to column `limit`, and whether it ended
in a later line. -/
def Cursor.plain (c : Cursor) (inFlow : Bool) (limit : Nat) :
    Option (String × Bool × Cursor) := do
  let (text, newLine, c) ← plainWords inFlow limit (c.rest.length + 1) [] ⟨[], []⟩ c
  return (String.ofList text, newLine, c)

/-! ## Quoted scalars -/

/-- A character of a given number of hexadecimal digits. -/
def hexEscape (digits : Nat) (cs : List Char) : Option (Char × Nat) :=
  if cs.length < digits then none
  else
    match Text.natural? 16 (cs.take digits) with
    | some n => if n.isValidChar then some (Char.ofNat n, digits) else none
    | none => none

/-- The character that an escape stands for, given what follows the backslash, and how many
characters the escape takes after the backslash. -/
def escape? : List Char → Option (Char × Nat)
  | [] => none
  | c :: cs =>
    let one (d : Char) : Option (Char × Nat) := some (d, 1)
    let hex (n : Nat) : Option (Char × Nat) := (hexEscape n cs).map fun p => (p.1, p.2 + 1)
    match c with
    | '0' => one '\x00'
    | 'a' => one '\x07'
    | 'b' => one '\x08'
    | 't' | '\t' => one '\t'
    | 'n' => one '\n'
    | 'v' => one '\x0B'
    | 'f' => one '\x0C'
    | 'r' => one '\r'
    | 'e' => one '\x1B'
    | ' ' => one ' '
    | '"' => one '"'
    | '/' => one '/'
    | '\\' => one '\\'
    | 'N' => one '\x85'
    | '_' => one '\xA0'
    | 'L' => one '\u2028'
    | 'P' => one '\u2029'
    | 'x' => hex 2
    | 'u' => hex 4
    | 'U' => hex 8
    | _ => none

/-- The rest of a quoted scalar. The text read so far is given with its last character first. -/
def quotedRest (double : Bool) : Nat → List Char → Cursor → Option (List Char × Cursor)
  | 0, _, _ => none
  | steps + 1, text, c =>
    let go (more : List Char) (c : Cursor) : Option (List Char × Cursor) :=
      quotedRest double steps (more.reverse ++ text) c
    match c.rest with
    | [] => none
    | ch :: cs =>
      if c.atDocumentMarker then none
      else if isBlank ch || isBreak ch then (c.takeGap 0).bind fun p => go p.1.folded p.2
      else if double then
        if ch == '"' then some (text, c.skip 1)
        else if ch == '\\' then
          if cs.head?.any isBreak then
            let c := (c.skip 1).skipBreak
            if c.at? '"' then some (text, c.skip 1)
            else c.takeLineGap.bind fun p => go p.1.breaks p.2
          else (escape? cs).bind fun p => go [p.1] (c.skip (p.2 + 1))
        else go [ch] (c.skip 1)
      else if ch == '\'' then
        if cs.head? == some '\'' then go [ch] (c.skip 2) else some (text, c.skip 1)
      else go [ch] (c.skip 1)

/-- The text of a quoted scalar that begins at the cursor. -/
def Cursor.quoted (c : Cursor) (double : Bool) : Option (String × Cursor) := do
  let (text, c) ← quotedRest double (c.rest.length + 1) [] (c.skip 1)
  return (String.ofList text.reverse, c)

/-! ## Block scalars -/

/-- What becomes of the line breaks at the end of a block scalar. -/
inductive Chomping where
  | strip | clip | keep
  deriving DecidableEq, Repr

/-- The header of a block scalar: the chomping and how much deeper it is indented, if given. -/
def Cursor.blockHeader (c : Cursor) : Option (Chomping × Option Nat × Cursor) :=
  let chomping (c : Cursor) : Option Chomping × Cursor :=
    if c.at? '+' then (some .keep, c.skip 1)
    else if c.at? '-' then (some .strip, c.skip 1)
    else (none, c)
  let indentation (c : Cursor) : Option (Option Nat × Cursor) :=
    match c.next? with
    | some ch =>
      if ch = '0' then none
      else if Text.isDigit ch then some (Text.digit? ch, c.skip 1)
      else some (none, c)
    | none => some (none, c)
  match chomping c with
  | (some ch, c) => (indentation c).map fun p => (ch, p.1, p.2)
  | (none, c) =>
    (indentation c).map fun p =>
      match p.1 with
      | some n => let (ch, c) := chomping p.2; (ch.getD .clip, some n, c)
      | none => (.clip, none, p.2)

/-- Blank lines, and the indentation of the line after them. Without a known indentation, the
deepest indentation seen is returned; within the indentation a tab is refused. -/
def takeBlankLines (indent : Option Nat) (breaks : List Char) (deepest line column : Nat) :
    List Char → Option (List Char × Nat × Cursor)
  | [] => some (breaks, max deepest column, ⟨[], line, column⟩)
  | c :: cs =>
    let within := indent.all (column < ·)
    if within && c == ' ' then takeBlankLines indent breaks deepest line (column + 1) cs
    else if within && c == '\t' then none
    else if isBreak c then
      takeBlankLines indent (breaks ++ [c]) (max deepest column) (line + 1) 0 cs
    else some (breaks, max deepest column, ⟨c :: cs, line, column⟩)

/-- The lines of a block scalar after the text read so far, the break that ended its last line,
and the blank lines after that. -/
def blockLines (literal : Bool) (indent : Nat) : Nat → List Char → List Char → List Char → Bool →
    Cursor → Option (List Char × List Char × List Char × Cursor)
  | 0, _, _, _, _, _ => none
  | steps + 1, text, leading, trailing, leadingBlank, c =>
    if c.column != indent || c.rest.isEmpty then some (text, leading, trailing, c)
    else
      let blank := c.next?.any isBlank
      let joint :=
        if !literal && leading.head? == some '\n' && !leadingBlank && !blank then
          if trailing.isEmpty then [' '] else []
        else leading
      let (line, c) := c.takeRun fun ch => !isBreak ch
      let leading := c.rest.take 1
      let c := if leading.isEmpty then c else c.skipBreak
      match takeBlankLines (some indent) [] 0 c.line c.column c.rest with
      | none => none
      | some (breaks, _, c) =>
        blockLines literal indent steps (text ++ joint ++ trailing ++ line) leading breaks blank c

/-- The text of a block scalar that begins at the cursor, inside the given indentation. -/
def Cursor.block (c : Cursor) (literal : Bool) (parent : Int) : Option (String × Cursor) := do
  let (chomping, deeper, c) ← (c.skip 1).blockHeader
  let c ← c.endLine?
  let given : Option Nat := deeper.map fun n => (if 0 ≤ parent then parent.toNat else 0) + n
  let (breaks, deepest, c) ← takeBlankLines given [] 0 c.line c.column c.rest
  let indent := given.getD (max (max deepest (parent + 1).toNat) 1)
  let (text, leading, trailing, c) ←
    blockLines literal indent (c.rest.length + 1) [] [] breaks false c
  let tail := match chomping with
    | .strip => []
    | .clip => leading
    | .keep => leading ++ trailing
  return (String.ofList (text ++ tail), c)

end MappingMetadata.Yaml
