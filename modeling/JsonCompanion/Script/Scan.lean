import JsonCompanion.Script.Context

/-!
# Scanning

Each scanner looks at the text from some place on and tells what stands there and how many units it
takes; `none` means that nothing valid does.

* `skip` passes blanks and comments.
* `escapeAt?` is the meaning of an escape sequence, `nameAt?`, `stringAt?`, `numberAt?`, `chunkAt?`
  and `regexAt?` scan identifiers, strings, numbers, parts of templates and regular expressions.
* `tokenAt?` is the next token.  What it is hangs on the context: whether a slash begins a regular
  expression, which escapes are refused, and what a word with escapes means.
-/

namespace JsonCompanion.Script

/-! ### Blanks and comments -/

/-- What separates tokens: blanks, and three more invisible characters. -/
def isSeparator (u : CodeUnit) : Bool := u.isBlank || u == 0x85 || u == 0x200B || u == 0xFFEF

/-- What is being skipped: nothing yet, a line comment, or a block comment, with the place where
the comment began and its text so far, last unit first; or a markup comment, which is not kept. -/
inductive SkipMode
  | between
  | line (start : Nat) (taken : Text)
  | block (start : Nat) (taken : Text)
  | markup

/-- The text behind blanks and comments, whether a line ended among them, and the comments, the
last one first. -/
structure Skipped where
  rest : Text
  offset : Nat
  lineBreak : Bool
  comments : List Comment

/-- Passes blanks and comments, in some scripts also markup comments up to the end of a line; `none`
for a block comment without end. -/
def skip (hasMarkup : Bool) : Text → (offset : Nat) → SkipMode → (lineBreak : Bool) → List Comment →
    Option Skipped
  | [], offset, .between, lineBreak, comments => some ⟨[], offset, lineBreak, comments⟩
  | [], offset, .markup, lineBreak, comments => some ⟨[], offset, lineBreak, comments⟩
  | [], offset, .line start taken, lineBreak, comments =>
    some ⟨[], offset, lineBreak, ⟨.line, taken.reverse, start, offset⟩ :: comments⟩
  | [], _, .block .., _, _ => none
  | u :: us, offset, .line start taken, lineBreak, comments =>
    if u.isLineEnd then
      skip hasMarkup us (offset + 1) .between true
        (⟨.line, taken.reverse, start, offset⟩ :: comments)
    else skip hasMarkup us (offset + 1) (.line start (u :: taken)) lineBreak comments
  | u :: us, offset, .markup, lineBreak, comments =>
    if u.isLineEnd then skip hasMarkup us (offset + 1) .between true comments
    else skip hasMarkup us (offset + 1) .markup lineBreak comments
  | [_], _, .block .., _, _ => none
  | u :: v :: us, offset, .block start taken, lineBreak, comments =>
    if u == '*' && v == '/' then
      skip hasMarkup us (offset + 2) .between lineBreak
        (⟨.block, taken.reverse, start, offset + 2⟩ :: comments)
    else
      skip hasMarkup (v :: us) (offset + 1) (.block start (u :: taken)) (lineBreak || u.isLineEnd)
        comments
  | [u], offset, .between, lineBreak, comments =>
    if isSeparator u then some ⟨[], offset + 1, lineBreak || u.isLineEnd, comments⟩
    else some ⟨[u], offset, lineBreak, comments⟩
  | u :: v :: us, offset, .between, lineBreak, comments =>
    if isSeparator u then
      skip hasMarkup (v :: us) (offset + 1) .between (lineBreak || u.isLineEnd) comments
    else if u == '/' && v == '/' then
      skip hasMarkup us (offset + 2) (.line offset []) lineBreak comments
    else if u == '/' && v == '*' then
      skip hasMarkup us (offset + 2) (.block offset []) lineBreak comments
    else if hasMarkup && u == '<' && v == '!' && Text.beginsWith us "--" then
      skip hasMarkup us (offset + 2) .markup lineBreak comments
    else some ⟨u :: v :: us, offset, lineBreak, comments⟩

/-! ### Escape sequences -/

/-- The meaning of an escape sequence: its units and how many units it takes behind the backslash;
`legacy` marks the octal forms. -/
structure Escape where
  units : Text
  width : Nat
  legacy : Bool

/-- The code point of `u` and four hexadecimal digits, or of `u` and digits in braces, and the
width. -/
def unicodeEscapeAt? : Text → Option (Nat × Nat)
  | u :: v :: rest =>
    if u != 'u' then none
    else if v == '\x7b' then
      let digits := rest.takeWhile fun (w : CodeUnit) => w != '\x7d'
      if digits.length < rest.length then
        match Number.ofDigits? 16 digits with
        | some n => if n ≤ 0x10FFFF then some (n, digits.length + 3) else none
        | none => none
      else none
    else
      let digits := (v :: rest).take 4
      if digits.length = 4 then (Number.ofDigits? 16 digits).map fun n => (n, 5) else none
  | _ => none

/-- An octal digit. -/
def isOctalDigit (u : CodeUnit) : Bool := u.between '0' '7'

/-- The digits of an octal escape: up to three if the first is at most three, else up to two. -/
def octalDigits : Text → Text
  | [] => []
  | u :: us =>
    let limit := if u.between '0' '3' then 2 else 1
    u :: (us.take limit).takeWhile isOctalDigit

/-- The unit that a letter stands for behind a backslash. -/
def controlOf? (u : CodeUnit) : Option CodeUnit :=
  if u == 'n' then some 0x0A
  else if u == 't' then some 0x09
  else if u == 'r' then some 0x0D
  else if u == 'b' then some 0x08
  else if u == 'v' then some 0x0B
  else if u == 'f' then some 0x0C
  else none

/-- The escape sequence behind a backslash.  Braces without digits stand for the unit zero, and the
digits eight and nine for nothing. -/
def escapeAt? : Text → Option Escape
  | [] => none
  | u :: us =>
    if u == 0x0D && us.head? == some 0x0A then some ⟨[], 2, false⟩
    else if u.isLineEnd then some ⟨[], 1, false⟩
    else match controlOf? u with
      | some control => some ⟨[control], 1, false⟩
      | none =>
        if u == 'x' then
          let digits := us.take 2
          if digits.length = 2 then
            (Number.ofDigits? 16 digits).map fun n => ⟨[UInt16.ofNat n], 3, false⟩
          else none
        else if u == 'u' then
          if Text.beginsWith us "\x7b\x7d" then some ⟨[0], 3, false⟩
          else (unicodeEscapeAt? (u :: us)).map fun (n, width) => ⟨Text.ofCodePoint n, width, false⟩
        else if isOctalDigit u then
          let digits := octalDigits (u :: us)
          let alone := u == '0' && !(us.head?.any CodeUnit.isDigit)
          (Number.ofDigits? 8 digits).map fun n => ⟨[UInt16.ofNat n], digits.length, !alone⟩
        else if u == '8' || u == '9' then none
        else some ⟨[u], 1, false⟩

/-! ### Names -/

/-- The identifier that a text begins with, its width, and whether an escape occurs in it. -/
structure Name where
  name : Text
  width : Nat
  escaped : Bool

/-- Continues an identifier; the first argument counts units that belong to a character already
taken.  `none` for a backslash that begins no identifier character. -/
def nameAt? : (pending : Nat) → Text → Option Name
  | _, [] => some ⟨[], 0, false⟩
  | pending + 1, _ :: us => (nameAt? pending us).map fun r => { r with width := r.width + 1 }
  | 0, u :: us =>
    if u == '\\' then
      match unicodeEscapeAt? us with
      | some (n, width) =>
        if Text.isIdentifierPart n then
          (nameAt? width us).map fun r =>
            { name := Text.ofCodePoint n ++ r.name, width := r.width + 1, escaped := true }
        else none
      | none => none
    else
      let (n, extra, units) : Nat × Nat × Text := match us with
        | v :: _ =>
          if u.isLeading && v.isTrailing then (Text.pairValue u v, 1, [u, v]) else (u.toNat, 0, [u])
        | [] => (u.toNat, 0, [u])
      if Text.isIdentifierPart n then
        (nameAt? extra us).map fun r => { r with name := units ++ r.name, width := r.width + 1 }
      else some ⟨[], 0, false⟩

/-- A whole identifier: its first character may begin one. -/
def identifierAt? (t : Text) : Option Name := do
  let name ← nameAt? 0 t
  let first ← name.name.codePoints.head?
  if Text.isIdentifierStart first then some name else none

/-- A text begins with a character of an identifier. -/
def beginsName : Text → Bool
  | [] => false
  | [u] => u == '\\' || Text.isIdentifierPart u.toNat
  | u :: v :: _ =>
    u == '\\' ||
      Text.isIdentifierPart (if u.isLeading && v.isTrailing then Text.pairValue u v else u.toNat)

/-- A text begins with a character that may begin an identifier, or with a backslash. -/
def opensName (t : Text) : Bool :=
  t.beginsWith "\\" || (Text.codePoints (t.take 2)).head?.any Text.isIdentifierStart

/-! ### Strings and templates -/

/-- The value of a string, the width up to and with the closing quote, and whether an octal escape
occurs. -/
structure Scanned where
  value : Text
  width : Nat
  legacy : Bool

/-- A string behind its opening quote. -/
def stringAt? (quote : CodeUnit) : (pending : Nat) → Text → Option Scanned
  | _, [] => none
  | pending + 1, _ :: us =>
    (stringAt? quote pending us).map fun r => { r with width := r.width + 1 }
  | 0, u :: us =>
    if u == quote then some ⟨[], 1, false⟩
    else if u == '\\' then
      match escapeAt? us with
      | some escape =>
        (stringAt? quote escape.width us).map fun r =>
          ⟨escape.units ++ r.value, r.width + 1, escape.legacy || r.legacy⟩
      | none => none
    else if u == 0x0A || u == 0x0D then none
    else (stringAt? quote 0 us).map fun r => { r with value := u :: r.value, width := r.width + 1 }

/-- A part of a template: its value, if all escapes in it are valid, its width with what ends it,
and whether the template ends with it. -/
structure Chunk where
  value : Option Text
  width : Nat
  last : Bool

/-- Puts units in front of a part. -/
def Chunk.push (units : Text) (width : Nat) (chunk : Chunk) : Chunk where
  value := chunk.value.map (units ++ ·)
  width := chunk.width + width
  last := chunk.last

/-- A part of a template behind an escape that is not valid: it has no value, and a backslash is
like any other unit. -/
def rawChunkAt? : Text → Option Chunk
  | [] => none
  | u :: us =>
    if u == '\x60' then some ⟨none, 1, true⟩
    else if u == '$' && us.head? == some (CodeUnit.ofChar '\x7b') then some ⟨none, 2, false⟩
    else (rawChunkAt? us).map (Chunk.push [] 1)

/-- A part of a template up to the closing backquote or an opening substitution.  Line ends are kept
as they are, and only the ASCII ones continue a line behind a backslash. -/
def chunkAt? : (pending : Nat) → Text → Option Chunk
  | _, [] => none
  | pending + 1, _ :: us => (chunkAt? pending us).map fun r => { r with width := r.width + 1 }
  | 0, u :: us =>
    if u == '\x60' then some ⟨some [], 1, true⟩
    else if u == '$' && us.head? == some (CodeUnit.ofChar '\x7b') then some ⟨some [], 2, false⟩
    else if u == '\\' then
      let beyondAscii := us.head?.filter fun v => decide (0x7E < v.toNat)
      match beyondAscii, escapeAt? us with
      | some v, _ => (chunkAt? 1 us).map (Chunk.push [v] 1)
      | none, some escape =>
        if escape.legacy then (rawChunkAt? us).map (Chunk.push [] 1)
        else (chunkAt? escape.width us).map (Chunk.push escape.units 1)
      | none, none => (rawChunkAt? us).map (Chunk.push [] 1)
    else (chunkAt? 0 us).map (Chunk.push [u] 1)

/-! ### Numbers -/

/-- Digits of a base, with single underscores between digits. -/
def digitRun (base : Nat) (t : Text) : Text :=
  t.takeWhile fun u => u == '_' || (u.digitValue?.any (decide <| · < base))

/-- Underscores stand only between two digits. -/
def separatesDigits : Text → Bool
  | [] => true
  | [u] => u != '_'
  | u :: v :: r => !(u == '_' && v == '_') && separatesDigits (v :: r)

/-- Digits without underscores, if those stand only between digits. -/
def plainDigits? (run : Text) : Option Text :=
  if run.head? != some (CodeUnit.ofChar '_') && separatesDigits run then
    some (run.filter fun u => u != '_')
  else none

/-- A token and its width. -/
abbrev Sized := Token × Nat

/-- Accepts a number only if no digit or identifier follows. -/
def endNumber (t : Text) (token : Token) (width : Nat) : Option Sized :=
  if beginsName (t.drop width) then none else some (token, width)

/-- Appends a digit to a number in some base and rounds. -/
def appendDigit (base : Nat) (n : Number) (digit : Nat) : Number :=
  match n.toInt? with
  | some value => Number.ofInt (value * base + digit)
  | none => n

/-- The number that digits spell when it is rounded behind each of them. -/
def roundedDigits (base : Nat) (digits : Text) : Number :=
  digits.foldl (fun n u => appendDigit base n (u.digitValue?.getD 0)) (Number.ofNat 0)

/-- The exponent part of a number, sign and digits, and its width. -/
def powerAt? : Text → Option (Text × Nat)
  | u :: us =>
    if u == 'e' || u == 'E' then
      let (sign, digits) : Text × Text := match us with
        | v :: vs => if v == '+' || v == '-' then ([v], vs) else ([], v :: vs)
        | [] => ([], [])
      let run := digitRun 10 digits
      if run.isEmpty then none
      else (plainDigits? run).map fun plain => (u :: sign ++ plain, 1 + sign.length + run.length)
    else some ([], 0)
  | [] => some ([], 0)

/-- A number whose base is no ten, given the width so far: behind an exponent part its value is the
text of both. -/
def basedNumber? (t : Text) (value : Number) (width : Nat) : Option Sized := do
  let (power, powerWidth) ← powerAt? (t.drop width)
  let token := if power.isEmpty then Token.number value false else .numeral (value.text ++ power)
  endNumber t token (width + powerWidth)

/-- An integer in the base announced by a letter behind a leading zero. -/
def basedAt? (base : Nat) (t : Text) : Option Sized := do
  let run := digitRun base (t.drop 2)
  let plain ← plainDigits? run
  let value ← Number.ofDigits? base plain
  let width := run.length + 2
  if (t.drop width).head? == some (CodeUnit.ofChar 'n') then
    endNumber t (.bigint value) (width + 1)
  else basedNumber? t (roundedDigits base plain) width

/-- The fraction of a decimal number with its point, and its width. -/
def fractionAt? (t : Text) : Option (Text × Nat) :=
  if t.head? == some (CodeUnit.ofChar '.') then do
    let run := digitRun 10 (t.drop 1)
    some ("." ++ (← plainDigits? run), run.length + 1)
  else some ([], 0)

/-- A decimal number. -/
def decimalAt? (t : Text) : Option Sized := do
  let whole := digitRun 10 t
  let plain ← plainDigits? whole
  let behind := t.drop whole.length
  if behind.head? == some (CodeUnit.ofChar 'n') then
    if whole.isEmpty then none
    endNumber t (.bigint (← Number.ofDigits? 10 plain)) (whole.length + 1)
  else
    let (fraction, fractionWidth) ← fractionAt? behind
    let width := whole.length + fractionWidth
    let (power, powerWidth) ← powerAt? (t.drop width)
    let value ← Number.ofUnsigned? (plain ++ fraction ++ power) false
    endNumber t (.number value false) (width + powerWidth)

/-- How many digits behind a superfluous zero have no separators among them. -/
def unseparatedDigits : Nat := 10

/-- The decimal number that a text with a superfluous zero spells, given its octal digits and the
digits from the first other one on.  Without a point it is read as it stands up to the first
separator; before a point the octal digits count as such. -/
def zeroedValue? (written octal plain fraction power : Text) : Option Number :=
  if fraction.isEmpty then
    Number.ofUnsigned? (written.takeWhile fun (u : CodeUnit) => u != '_') false
  else
    let whole := if octal.isEmpty then plain else (roundedDigits 8 octal).text ++ plain
    Number.ofUnsigned? (whole ++ fraction ++ power) false

/-- A number that begins with a superfluous zero: octal if all its digits are, else decimal. -/
def zeroedAt? (t : Text) : Option Sized := do
  let octal := (t.drop 1).takeWhile isOctalDigit
  let behind := t.drop (octal.length + 1)
  let decimal := digitRun 10 behind
  if decimal.isEmpty then basedNumber? t (roundedDigits 8 octal) (octal.length + 1)
  else
    let unseparated := if octal.isEmpty then unseparatedDigits else 1
    if (decimal.take unseparated).contains (CodeUnit.ofChar '_') then none
    let plain ← plainDigits? decimal
    let (fraction, fractionWidth) ← fractionAt? (behind.drop decimal.length)
    let (power, powerWidth) ← powerAt? (behind.drop (decimal.length + fractionWidth))
    let width := 1 + octal.length + decimal.length + fractionWidth + powerWidth
    let value ← zeroedValue? (t.take width) octal plain fraction power
    endNumber t (.number value octal.isEmpty) width

/-- A number that begins with a digit or with a point before a digit; strict code has none with a
superfluous zero. -/
def numberAt? (strict : Bool) (t : Text) : Option Sized :=
  match t with
  | u :: v :: _ =>
    if u == '0' then
      match Number.baseOf? v with
      | some base => basedAt? base t
      | none =>
        if v == '_' then none
        else if v.isDigit then if strict then none else zeroedAt? t
        else decimalAt? t
    else decimalAt? t
  | _ => decimalAt? t

/-! ### Regular expressions -/

/-- A regular expression behind its opening slash. -/
def regexAt? (t : Text) : Option Sized := do
  let body ← regexBodyAt? ⟨false, false⟩ t
  let flags ← nameAt? 0 (t.drop (body.length + 1))
  let literal ← if flags.escaped then none else RegexLiteral.ofParts? body flags.name
  some (.regex literal, body.length + 1 + flags.width)

/-! ### Tokens -/

/-- A word. -/
def wordAt? (ctx : Context) (t : Text) : Option Sized :=
  (identifierAt? t).map fun r =>
    (.word ⟨r.name, r.escaped, ctx.vocabulary r.name r.escaped⟩, r.width)

/-- A string behind its opening quote; strict code has none with octal escapes. -/
def literalAt? (ctx : Context) (quote : CodeUnit) (t : Text) : Option Sized := do
  let scanned ← stringAt? quote 0 t
  if scanned.legacy && ctx.strict then none
  else some (.string scanned.value scanned.legacy, scanned.width + 1)

/-- A part of a template behind what opens it; only some may hold escapes that are not valid. -/
def templateAt? (ctx : Context) (t : Text) : Option Sized := do
  let chunk ← chunkAt? 0 t
  if ctx.looseTemplates || chunk.value.isSome then
    some (.template chunk.value chunk.last, chunk.width + 1)
  else none

/-- The punctuation at the beginning of a text; a question mark before a point and a digit stands
alone, a number sign has a name behind it, and the opening of a markup comment is refused. -/
def markAt? (t : Text) : Option Sized :=
  if t.beginsWith "<!--" then none
  else if t.beginsWith "?." && (t.drop 2).head?.any CodeUnit.isDigit then some (.mark "?", 1)
  else if t.beginsWith "#" && !opensName (t.drop 1) then none
  else (marks.find? fun mark => t.beginsWith mark).map fun mark => (.mark mark, mark.length)

/-- The token at the beginning of a text without blanks in front, and its width. -/
def tokenAt? (ctx : Context) (t : Text) : Option Sized :=
  match t with
  | [] => some (.finish, 0)
  | u :: us =>
    if u.isDigit || (u == '.' && us.head?.any CodeUnit.isDigit) then numberAt? ctx.strict t
    else if u == '"' || u == 0x27 then literalAt? ctx u us
    else if u == '\x60' then templateAt? ctx us
    else if u == '/' && ctx.expectsOperand then
      (regexAt? us).map fun (token, width) => (token, width + 1)
    else if beginsName t then wordAt? ctx t
    else markAt? t

end JsonCompanion.Script
